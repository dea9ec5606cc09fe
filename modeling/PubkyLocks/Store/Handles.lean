/-
  The exclusivity of handles across the admission lanes.

  A handle `(creator, bundle_id)` should belong to one lane: a pending
  folded-auth attempt or one verification task.  The six admission transactions
  run interleaved, each between its locks and its commit
  (`Transactions.exec Admission.program`).

  `insert_verification_task`, `start_or_rotate` and
  `accept_and_insert_graph_task` take the advisory lock of the handle.  The
  other three take only the lock of the content lock: `insert_graph_task` looks
  at pending attempts without it, `insert_invoice_pending_task` and
  `admit_payment_task` do not look at them at all.
-/
import PubkyLocks.Lib.Runs
import PubkyLocks.Store.Admissions

namespace PubkyLocks

open Admission Database FoldedAuth

open Transactions (Open State Event Exclusive)

/-! ## Handles -/

namespace Admission

def sameHandle (a b : Admission) : Bool := a.creator == b.creator && a.bundleId == b.bundleId

def starts : Admission → Bool
  | startOrRotate _ _ => true
  | _ => false

/-- The admission inserts a task and does not look at pending attempts. -/
def ignoresAttempts : Admission → Bool
  | insertInvoicePendingTask _ _ _ | admitPaymentTask _ _ => true
  | _ => false

theorem sameHandle_iff {a b : Admission} :
    a.sameHandle b ↔ a.creator = b.creator ∧ a.bundleId = b.bundleId := by
  simp only [sameHandle, Bool.and_eq_true, beq_iff_eq]

theorem locksHandle_of_starts {a : Admission} (h : a.starts) : a.locksHandle := by
  cases a with
  | startOrRotate q now => rfl
  | _ => cases h

theorem handle_mem_locks {a : Admission} (h : a.locksHandle) :
    AdmissionLock.handle a.creator a.bundleId ∈ a.program.locks := by
  simp [program, locks, h]

end Admission

variable {db : Database} {c : CreatorPubky} {b : BundleId}

theorem Database.foldedAuthPending_iff : db.foldedAuthPending c b ↔
      ∃ a ∈ db.attempts, a.creator = c ∧ a.bundleId = b ∧ a.status = .pending := by
  simp only [foldedAuthPending, List.any_eq_true, Bool.and_eq_true, beq_iff_eq, and_assoc]

theorem Database.mem_tasksOf {r : TaskRow} :
    r ∈ db.tasksOf c b ↔ r ∈ db.tasks ∧ r.creator = c ∧ r.bundleId = b := by
  simp only [tasksOf, List.mem_filter, Bool.and_eq_true, beq_iff_eq]

theorem Database.taskExists_iff :
    db.taskExists c b ↔ ∃ r ∈ db.tasks, r.creator = c ∧ r.bundleId = b := by
  simp only [taskExists, Bool.not_eq_true', List.isEmpty_eq_false_iff_exists_mem,
    mem_tasksOf]

/-! ## The invariant -/

/-- The committed part: a handle has one task, one pending attempt, and not
    both; state hashes are unique. -/
structure Database.HandlesExclusive (db : Database) : Prop where
  tasks : db.tasks.Pairwise fun r s => ¬ (s.creator = r.creator ∧ s.bundleId = r.bundleId)
  apart : ∀ a ∈ db.attempts, a.status = .pending → ¬ db.taskExists a.creator a.bundleId
  pending : ∀ a ∈ db.attempts, ∀ b ∈ db.attempts, a.status = .pending → b.status = .pending →
    a.creator = b.creator → a.bundleId = b.bundleId → a.stateHash = b.stateHash
  hashes : (db.attempts.map FoldedAuthAttempt.stateHash).Nodup

/-- What an open transaction may rely on until its commit. -/
def Holds (db : Database) (t : Open Admission) : Prop :=
  match t.label with
  | .insertVerificationTask _ | .insertGraphTask _ =>
    2 ≤ t.passed → ¬ db.foldedAuthPending t.label.creator t.label.bundleId
  | .insertInvoicePendingTask _ _ _ | .admitPaymentTask _ _ =>
    ¬ db.foldedAuthPending t.label.creator t.label.bundleId
  | .startOrRotate _ _ => 2 ≤ t.passed → ¬ db.taskExists t.label.creator t.label.bundleId
  | .acceptAndInsertGraphTask attempt _ _ _ =>
    1 ≤ t.passed → attempt ∈ db.attempts ∧ attempt.status = .pending

structure HandleInvariant (s : State Database Admission) : Prop where
  locks : Exclusive Admission.program s
  committed : s.db.HandlesExclusive
  holds : ∀ t ∈ s.active, Holds s.db t
  starts : ∀ t ∈ s.active, ∀ u ∈ s.active, t.label.starts → u.label.locksHandle = false →
    ¬ t.label.sameHandle u.label

/-- The condition on events.  A start begins only while no admission that does
    not lock the handle is open for it, and the other way round; an admission
    that ignores attempts begins only without a pending one. -/
def handleSafe (s : State Database Admission) : Event Admission → Bool
  | .begin _ a =>
    (!a.starts || s.active.all fun t => t.label.locksHandle || !a.sameHandle t.label) &&
    (a.locksHandle || s.active.all fun t => !t.label.starts || !t.label.sameHandle a) &&
    (!a.ignoresAttempts || !s.db.foldedAuthPending a.creator a.bundleId)
  | _ => true

theorem handleInvariant_init : HandleInvariant ⟨.empty, []⟩ where
  locks := List.Pairwise.nil
  committed := ⟨List.Pairwise.nil, List.forall_mem_nil _,
    List.forall_mem_nil _, List.nodup_nil⟩
  holds := List.forall_mem_nil _
  starts := List.forall_mem_nil _

variable {s s' : State Database Admission}

variable {id n : ℕ} {a : Admission} {db' : Database} {u : Open Admission} {r : TaskRow}
  {reader : CreatorPubky} {now : Timestamp} {q : StartFoldedAuthAttempt}
  {attempts : List FoldedAuthAttempt}

theorem holds_begin (h : a.ignoresAttempts → ¬ s.db.foldedAuthPending a.creator a.bundleId) :
    Holds s.db ⟨id, a, 0⟩ := by
  cases a with
  | insertInvoicePendingTask t i now => exact h rfl
  | admitPaymentTask q now => exact h rfl
  | insertVerificationTask t => exact fun hp => absurd hp (Nat.not_succ_le_zero _)
  | insertGraphTask t => exact fun hp => absurd hp (Nat.not_succ_le_zero _)
  | startOrRotate q now => exact fun hp => absurd hp (Nat.not_succ_le_zero _)
  | acceptAndInsertGraphTask attempt id reader now => exact fun hp => absurd hp (Nat.not_succ_le_zero _)

theorem holds_check {t : Open Admission} (h : Holds db t) {c : Database → Bool}
    (hc : (t.label.program).checks[t.passed]? = some c) (hdb : c db) :
    Holds db { t with passed := t.passed + 1 } := by
  obtain ⟨id, a, n⟩ := t
  cases a with
  | insertInvoicePendingTask t i now => exact h
  | admitPaymentTask q now => exact h
  | insertVerificationTask t =>
    intro hp
    rcases Nat.lt_or_ge 1 n with hn | hn
    · exact h hn
    · obtain rfl : n = 1 := by simp only at hp; omega
      cases hc
      simpa using hdb
  | insertGraphTask t =>
    intro hp
    rcases Nat.lt_or_ge 1 n with hn | hn
    · exact h hn
    · obtain rfl : n = 1 := by simp only at hp; omega
      cases hc
      simpa using hdb
  | startOrRotate q now =>
    intro hp
    rcases Nat.lt_or_ge 1 n with hn | hn
    · exact h hn
    · obtain rfl : n = 1 := by simp only at hp; omega
      cases hc
      simpa using hdb
  | acceptAndInsertGraphTask attempt id reader now =>
    intro _
    rcases Nat.lt_or_ge 0 n with hn | hn
    · exact h hn
    · obtain rfl : n = 0 := by omega
      cases hc
      simpa using hdb

/-! ## Writes -/

/-- A write keeps what another open transaction relies on, if it adds no
    pending attempt and no task to its handle and keeps its pending attempt. -/
theorem holds_write (h : Holds db u)
    (hpend : db'.foldedAuthPending u.label.creator u.label.bundleId →
      db.foldedAuthPending u.label.creator u.label.bundleId)
    (htask : u.label.starts → db'.taskExists u.label.creator u.label.bundleId →
      db.taskExists u.label.creator u.label.bundleId)
    (hmem : u.label.locksHandle → ∀ a ∈ db.attempts, a.status = .pending →
      a.creator = u.label.creator → a.bundleId = u.label.bundleId → a ∈ db'.attempts) :
    Holds db' u := by
  obtain ⟨id, a, n⟩ := u
  cases a with
  | insertInvoicePendingTask t i now => exact fun hp => h (hpend hp)
  | admitPaymentTask q now => exact fun hp => h (hpend hp)
  | insertVerificationTask t => exact fun hn hp => h hn (hpend hp)
  | insertGraphTask t => exact fun hn hp => h hn (hpend hp)
  | startOrRotate q now => exact fun hn ht => h hn (htask rfl ht)
  | acceptAndInsertGraphTask attempt id reader now =>
    intro hn
    obtain ⟨ha, hs⟩ := h hn
    exact ⟨hmem rfl attempt ha hs rfl rfl, hs⟩

structure Inserts (db db' : Database) (a : Admission) (r : TaskRow) : Prop where
  creator : r.creator = a.creator
  bundleId : r.bundleId = a.bundleId
  fresh : ∀ s ∈ db.tasks, ¬ (s.creator = r.creator ∧ s.bundleId = r.bundleId)
  tasks : db'.tasks = r :: db.tasks

theorem inserts_of_insertTask (hc : r.creator = a.creator) (hb : r.bundleId = a.bundleId)
    (hw : db.insertTask r = some db') : Inserts db db' a r ∧ db'.attempts = db.attempts := by
  obtain ⟨-, hf, rfl⟩ := insertTask_eq_some.1 hw
  exact ⟨⟨hc, hb, fun s hs => (hf s hs).2, rfl⟩, rfl⟩

theorem Admission.write_inserts (hs : ¬ a.starts)
    (ha : ∀ x id reader now, a ≠ .acceptAndInsertGraphTask x id reader now)
    (hw : a.write db = some db') : ∃ r, Inserts db db' a r ∧ db'.attempts = db.attempts := by
  cases a with
  | insertVerificationTask t => exact ⟨_, inserts_of_insertTask rfl rfl hw⟩
  | insertInvoicePendingTask t i now => exact ⟨_, inserts_of_insertTask rfl rfl hw⟩
  | insertGraphTask t => exact ⟨_, inserts_of_insertTask rfl rfl hw⟩
  | admitPaymentTask q now =>
    simp only [write] at hw
    split at hw
    · rename_i p hp
      obtain ⟨hv, hsub, -, -⟩ := PaymentTaskSnapshotV1.new_spec hp
      have hvalid := PaymentTaskSnapshotV1.valid_of_validate hv
      refine ⟨_, inserts_of_insertTask ?_ ?_ hw⟩
      · show p.creator = q.submittedProofBundle.pubkyLockResource.creator
        rw [← hsub, hvalid.resource, hvalid.creator]
      · show p.bundleId = q.submittedProofBundle.bundleId
        rw [← hsub, hvalid.bundleId]
    · cases hw
  | startOrRotate q now => exact absurd rfl hs
  | acceptAndInsertGraphTask x id reader now => exact absurd rfl (ha x id reader now)

theorem Admission.accepted_closes (now purgeAfter : Timestamp) (id : TaskId) :
    Closes (accepted now purgeAfter id) :=
  ⟨fun a => by simp [accepted, FoldedAuthAttempt.terminalized], fun _ => rfl⟩

/-- The write of an acceptance: the attempt is closed, and unless it has
    expired its handle gets a task. -/
theorem Admission.acceptWrite_spec {a : FoldedAuthAttempt} {id : TaskId}
    (hw : acceptWrite a id reader now db = some db') :
    (∃ f, Closes f ∧
      db'.attempts = Table.updateWhere (·.pendingAs a.stateHash a.generation) f db.attempts) ∧
    (db'.tasks = db.tasks ∨
      ∃ r, Inserts db db' (.acceptAndInsertGraphTask a id reader now) r) := by
  unfold acceptWrite at hw
  split at hw
  · obtain ⟨attempts, hterm, rfl⟩ := Option.map_eq_some_iff.1 hw
    obtain ⟨purgeAfter, rfl⟩ := terminalizePending_eq_some hterm
    exact ⟨⟨_, terminalized_closes (by decide) now purgeAfter, rfl⟩, .inl rfl⟩
  · split at hw
    · rename_i task purgeAfter htask _
      split at hw
      · cases hw
      · obtain ⟨p, hp, rfl⟩ := Checks.map_eq_ok.1 htask
        obtain ⟨-, hc, hb, -⟩ := GraphTaskSnapshotV1.new_spec hp
        obtain ⟨db₁, hins, rfl⟩ := Option.map_eq_some_iff.1 hw
        obtain ⟨-, hf, rfl⟩ := insertTask_eq_some.1 hins
        refine ⟨⟨_, accepted_closes now purgeAfter id, rfl⟩,
          .inr ⟨Graph.newRow id p, ?_⟩⟩
        exact ⟨hc, hb, fun s hs => (hf s hs).2, rfl⟩
    · cases hw

/-! ## Commits -/

variable {t : Open Admission}

theorem Database.HandlesExclusive.eq_of_hash (h : db.HandlesExclusive)
    {a b : FoldedAuthAttempt} (ha : a ∈ db.attempts) (hb : b ∈ db.attempts)
    (he : a.stateHash = b.stateHash) : a = b :=
  List.inj_on_of_nodup_map h.hashes ha hb he

theorem committed_insert
    (h : db.HandlesExclusive) (hi : Inserts db db' a r) (hatt : db'.attempts = db.attempts)
    (hp : ¬ db.foldedAuthPending a.creator a.bundleId) : db'.HandlesExclusive where
  tasks := by
    rw [hi.tasks]
    exact List.pairwise_cons.2 ⟨hi.fresh, h.tasks⟩
  apart := by
    rw [hatt]
    intro x hx hs ht
    obtain ⟨q, hq, hc, hb⟩ := taskExists_iff.1 ht
    rw [hi.tasks] at hq
    rcases List.mem_cons.1 hq with rfl | hq
    · refine hp (foldedAuthPending_iff.2 ⟨x, hx, ?_, ?_, hs⟩)
      · rw [← hc, hi.creator]
      · rw [← hb, hi.bundleId]
    · exact h.apart x hx hs (taskExists_iff.2 ⟨q, hq, hc, hb⟩)
  pending := by
    rw [hatt]
    exact h.pending
  hashes := by
    rw [hatt]
    exact h.hashes

theorem committed_start (h : db.HandlesExclusive)
    (hw : startOrRotate db.attempts q now = some attempts)
    (ht : ¬ db.taskExists q.creator q.bundleId) :
    Database.HandlesExclusive { db with attempts } := by
  obtain ⟨a, rotated, rfl, hc, hb, -, hnew, hrot⟩ := startOrRotate_spec hw
  have hold : ∀ x ∈ rotated, x.status = .pending → x ∈ db.attempts := by
    rcases hrot with rfl | ⟨latest, -, -, -, f, hf, rfl⟩
    · exact fun x hx _ => hx
    · exact fun x hx hs => (hf.pending hx hs).1
  refine ⟨h.tasks, ?_, ?_, ?_⟩
  · intro x hx hs
    rcases List.mem_cons.1 hx with rfl | hx
    · rw [hc, hb]
      exact ht
    · exact h.apart x (hold x hx hs) hs
  · intro x hx y hy hsx hsy hcr hbi
    rcases List.mem_cons.1 hx with rfl | hx'
    · rcases List.mem_cons.1 hy with rfl | hy'
      · rfl
      · exact absurd hsy ((hnew y hy').2 (hcr.symm.trans hc) (hbi.symm.trans hb))
    · rcases List.mem_cons.1 hy with rfl | hy'
      · exact absurd hsx ((hnew x hx').2 (hcr.trans hc) (hbi.trans hb))
      · exact h.pending x (hold x hx' hsx) y (hold y hy' hsy) hsx hsy hcr hbi
  · refine List.nodup_cons.2 ⟨?_, ?_⟩
    · intro hmem
      obtain ⟨x, hx, he⟩ := List.mem_map.1 hmem
      exact (hnew x hx).1 he
    · rcases hrot with rfl | ⟨latest, -, -, -, f, hf, rfl⟩
      · exact h.hashes
      · rw [hf.map_stateHash]
        exact h.hashes

theorem committed_accept {a : FoldedAuthAttempt} {id : TaskId} (h : db.HandlesExclusive)
    (ha : a ∈ db.attempts)
    (hs : a.status = .pending) (hw : acceptWrite a id reader now db = some db') :
    db'.HandlesExclusive := by
  obtain ⟨⟨f, hf, hatt⟩, htasks⟩ := acceptWrite_spec hw
  -- a pending attempt after the write is another one, of another handle
  have hold : ∀ x ∈ db'.attempts, x.status = .pending → x ∈ db.attempts ∧
      ¬ (x.creator = a.creator ∧ x.bundleId = a.bundleId) := by
    intro x hx hsx
    rw [hatt] at hx
    obtain ⟨hx, hne⟩ := hf.pending hx hsx
    refine ⟨hx, fun hh => hne ?_⟩
    have he := h.eq_of_hash hx ha (h.pending x hx a ha hsx hs hh.1 hh.2)
    rw [he, FoldedAuthAttempt.pendingAs_iff]
    exact ⟨rfl, rfl, hs⟩
  refine ⟨?_, ?_, ?_, ?_⟩
  · rcases htasks with he | ⟨r, hi⟩
    · rw [he]
      exact h.tasks
    · rw [hi.tasks]
      exact List.pairwise_cons.2 ⟨hi.fresh, h.tasks⟩
  · intro x hx hsx ht
    obtain ⟨hx, hne⟩ := hold x hx hsx
    obtain ⟨q, hq, hc, hb⟩ := taskExists_iff.1 ht
    have hold' := fun hq => h.apart x hx hsx (taskExists_iff.2 ⟨q, hq, hc, hb⟩)
    rcases htasks with he | ⟨r, hi⟩
    · exact hold' (he ▸ hq)
    · rw [hi.tasks] at hq
      rcases List.mem_cons.1 hq with rfl | hq
      · exact hne ⟨hc.symm.trans hi.creator, hb.symm.trans hi.bundleId⟩
      · exact hold' hq
  · intro x hx y hy hsx hsy
    exact h.pending x (hold x hx hsx).1 y (hold y hy hsy).1 hsx hsy
  · rw [hatt, hf.map_stateHash]
    exact h.hashes

theorem HandleInvariant.apart_of_locks (h : HandleInvariant s)
    (ht : t ∈ s.active) (hu : u ∈ s.active) (hne : u.id ≠ t.id) (hlt : t.label.locksHandle)
    (hlu : u.label.locksHandle) : ¬ t.label.sameHandle u.label := by
  intro hsame
  obtain ⟨hc, hb⟩ := sameHandle_iff.1 hsame
  have hlock := handle_mem_locks hlu
  rw [← hc, ← hb] at hlock
  exact hne (congrArg Open.id (h.locks.eq_of_lock hu ht hlock (handle_mem_locks hlt)))

theorem mem_without (hu : u ∈ s.without id) : u ∈ s.active ∧ u.id ≠ id := by
  obtain ⟨hu, hne⟩ := List.mem_filter.1 hu
  exact ⟨hu, by simpa using hne⟩

section
variable (h : HandleInvariant s)
include h

theorem HandleInvariant.apart_of_starts
    (ht : t ∈ s.active) (hu : u ∈ s.active) (hne : u.id ≠ t.id) (hst : t.label.starts) :
    ¬ t.label.sameHandle u.label := by
  have hlt := locksHandle_of_starts hst
  cases hlu : u.label.locksHandle with
  | true => exact h.apart_of_locks ht hu hne hlt hlu
  | false => exact h.starts t ht u hu hst hlu

theorem commit_insert (ht : t ∈ s.active) (hs : ¬ t.label.starts)
    (ha : ∀ x id reader now, t.label ≠ .acceptAndInsertGraphTask x id reader now)
    (hp : ¬ s.db.foldedAuthPending t.label.creator t.label.bundleId)
    (hw : t.label.write s.db = some db') :
    db'.HandlesExclusive ∧ ∀ u ∈ s.without t.id, Holds db' u := by
  obtain ⟨r, hi, hatt⟩ := write_inserts hs ha hw
  refine ⟨committed_insert h.committed hi hatt hp, fun u hu => ?_⟩
  obtain ⟨hu, hne⟩ := mem_without hu
  refine holds_write (h.holds u hu) ?_ (fun hst hex => ?_) ?_
  · intro hpend
    rw [foldedAuthPending_iff, hatt] at hpend
    exact foldedAuthPending_iff.2 hpend
  · -- the inserted task is of another handle than the start
    obtain ⟨q, hq, hc, hb⟩ := taskExists_iff.1 hex
    rw [hi.tasks] at hq
    rcases List.mem_cons.1 hq with rfl | hq
    · refine absurd (sameHandle_iff.2 ⟨?_, ?_⟩) (h.apart_of_starts hu ht hne.symm hst)
      · exact hc.symm.trans hi.creator
      · exact hb.symm.trans hi.bundleId
    · exact taskExists_iff.2 ⟨q, hq, hc, hb⟩
  · intro _ x hx _ _ _
    rw [hatt]
    exact hx

theorem commit_start (ht : ⟨id, .startOrRotate q now, n⟩ ∈ s.active)
    (htask : ¬ s.db.taskExists q.creator q.bundleId)
    (hw : startOrRotate s.db.attempts q now = some attempts) :
    Database.HandlesExclusive { s.db with attempts } ∧
      ∀ u ∈ s.without id, Holds { s.db with attempts } u := by
  refine ⟨committed_start h.committed hw htask, fun u hu => ?_⟩
  obtain ⟨hu, hne⟩ := mem_without hu
  have hapart := h.apart_of_starts ht hu hne rfl
  rw [sameHandle_iff] at hapart
  obtain ⟨a, rotated, rfl, hc, hb, -, -, hrot⟩ := startOrRotate_spec hw
  refine holds_write (h.holds u hu) ?_ (fun _ hex => hex) ?_
  · intro hpend
    obtain ⟨x, hx, hxc, hxb, hxs⟩ := foldedAuthPending_iff.1 hpend
    refine foldedAuthPending_iff.2 ⟨x, ?_, hxc, hxb, hxs⟩
    rcases List.mem_cons.1 hx with rfl | hx
    · exact absurd ⟨hc.symm.trans hxc, hb.symm.trans hxb⟩ hapart
    · rcases hrot with rfl | ⟨latest, -, -, -, f, hf, rfl⟩
      · exact hx
      · exact (hf.pending hx hxs).1
  · intro _ x hx _ hxc hxb
    refine List.mem_cons_of_mem _ ?_
    rcases hrot with rfl | ⟨latest, hl, hlc, hlb, f, -, rfl⟩
    · exact hx
    · refine mem_close_of_ne hx fun he => hapart ?_
      have he := h.committed.eq_of_hash hx hl he
      rw [he] at hxc hxb
      exact ⟨hlc.symm.trans hxc, hlb.symm.trans hxb⟩

theorem commit_accept {a : FoldedAuthAttempt} {taskId : TaskId}
    (ht : ⟨id, .acceptAndInsertGraphTask a taskId reader now, n⟩ ∈ s.active)
    (ha : a ∈ s.db.attempts) (hs : a.status = .pending)
    (hw : acceptWrite a taskId reader now s.db = some db') :
    db'.HandlesExclusive ∧ ∀ u ∈ s.without id, Holds db' u := by
  refine ⟨committed_accept h.committed ha hs hw, fun u hu => ?_⟩
  obtain ⟨hu, hne⟩ := mem_without hu
  obtain ⟨⟨f, hf, hatt⟩, htasks⟩ := acceptWrite_spec hw
  have hapart : u.label.locksHandle → ¬ (a.creator = u.label.creator ∧
      a.bundleId = u.label.bundleId) := fun hl hh =>
    h.apart_of_locks ht hu hne rfl hl (sameHandle_iff.2 hh)
  refine holds_write (h.holds u hu) ?_ (fun hst hex => ?_) ?_
  · intro hpend
    obtain ⟨x, hx, hxc, hxb, hxs⟩ := foldedAuthPending_iff.1 hpend
    rw [hatt] at hx
    exact foldedAuthPending_iff.2 ⟨x, (hf.pending hx hxs).1, hxc, hxb, hxs⟩
  · obtain ⟨q, hq, hc, hb⟩ := taskExists_iff.1 hex
    refine taskExists_iff.2 ⟨q, ?_, hc, hb⟩
    rcases htasks with he | ⟨r, hi⟩
    · exact he ▸ hq
    · rw [hi.tasks] at hq
      rcases List.mem_cons.1 hq with rfl | hq
      · refine absurd ?_ (h.apart_of_starts hu ht hne.symm hst)
        exact sameHandle_iff.2 ⟨hc.symm.trans hi.creator, hb.symm.trans hi.bundleId⟩
      · exact hq
  · intro hl x hx _ hxc hxb
    rw [hatt]
    refine mem_close_of_ne hx fun he => hapart hl ?_
    have he := h.committed.eq_of_hash hx ha he
    rw [he] at hxc hxb
    exact ⟨hxc, hxb⟩

theorem commit_spec (ht : t ∈ s.active) (hp : t.passed = t.label.program.checks.length)
    (hw : t.label.program.write s.db = some db') :
    db'.HandlesExclusive ∧ ∀ u ∈ s.without t.id, Holds db' u := by
  have hholds := h.holds t ht
  obtain ⟨id, a, n⟩ := t
  cases a with
  | insertVerificationTask t =>
    exact commit_insert h ht (by simp [starts]) (by simp) (hholds (hp.trans_ge (Nat.le_of_ble_eq_true rfl))) hw
  | insertInvoicePendingTask t i now =>
    exact commit_insert h ht (by simp [starts]) (by simp) hholds hw
  | insertGraphTask t =>
    exact commit_insert h ht (by simp [starts]) (by simp) (hholds (hp.trans_ge (Nat.le_of_ble_eq_true rfl))) hw
  | admitPaymentTask q now =>
    exact commit_insert h ht (by simp [starts]) (by simp) hholds hw
  | startOrRotate q now =>
    obtain ⟨attempts, hw', rfl⟩ := Option.map_eq_some_iff.1 hw
    exact commit_start h ht (hholds (hp.trans_ge (Nat.le_of_ble_eq_true rfl))) hw'
  | acceptAndInsertGraphTask x taskId reader now =>
    obtain ⟨hx, hs⟩ := hholds (hp.trans_ge (Nat.le_of_ble_eq_true rfl))
    exact commit_accept h ht hx hs hw

/-! ## Events -/

/-- **One event** that meets the condition keeps the invariant. -/
theorem handleInvariant_exec {e : Event Admission}
    (hok : handleSafe s e) (hstep : Transactions.exec program s e = some s') :
    HandleInvariant s' := by
  have hlocks := Transactions.exclusive_exec h.locks hstep
  rcases Transactions.exec_cases hstep with ⟨id, a, rfl, -, -, rfl⟩ | ⟨t, ht, c, -, hc, hdb, rfl⟩ |
    ⟨t, ht, -, hp, hw, hact⟩ | ⟨id, -, rfl⟩
  · simp only [handleSafe, Bool.and_eq_true, Bool.or_eq_true, Bool.not_eq_true',
      List.all_eq_true] at hok
    obtain ⟨⟨hstart, hlane⟩, hpend⟩ := hok
    refine ⟨hlocks, h.committed, List.forall_mem_cons.2 ⟨holds_begin fun hi => ?_, h.holds⟩, ?_⟩
    · simpa [hi] using hpend
    · intro t ht u hu hst hlu hsame
      rcases List.mem_cons.1 ht with rfl | ht <;> rcases List.mem_cons.1 hu with rfl | hu
      · simp [locksHandle_of_starts hst] at hlu
      · simp only [hst, Bool.true_eq_false, false_or] at hstart
        rcases hstart u hu with hl | hns
        · simp [hl] at hlu
        · simp [hns] at hsame
      · simp only [hlu, Bool.false_eq_true, false_or] at hlane
        rcases hlane t ht with hns | hns
        · simp [hns] at hst
        · simp [hns] at hsame
      · exact h.starts t ht u hu hst hlu hsame
  · have hmem : ∀ u ∈ { t with passed := t.passed + 1 } :: s.without t.id,
        ∃ v ∈ s.active, v.label = u.label := by
      refine List.forall_mem_cons.2 ⟨⟨t, ht, rfl⟩, fun u hu => ⟨u, (mem_without hu).1, rfl⟩⟩
    refine ⟨hlocks, h.committed, List.forall_mem_cons.2 ⟨holds_check (h.holds t ht) hc hdb,
      fun u hu => h.holds u (mem_without hu).1⟩, fun u hu v hv => ?_⟩
    obtain ⟨u', hu', hul⟩ := hmem u hu
    obtain ⟨v', hv', hvl⟩ := hmem v hv
    rw [← hul, ← hvl]
    exact h.starts u' hu' v' hv'
  · obtain ⟨hdb, hholds⟩ := commit_spec h ht hp hw
    refine ⟨hlocks, hdb, ?_, ?_⟩
    · rw [hact]
      exact hholds
    · rw [hact]
      exact fun u hu v hv => h.starts u (mem_without hu).1 v (mem_without hv).1
  · exact ⟨hlocks, h.committed, fun u hu => h.holds u (mem_without hu).1,
      fun u hu v hv => h.starts u (mem_without hu).1 v (mem_without hv).1⟩

end

/-- **Handles are exclusive** in every committed state of every interleaving
    whose events meet `handleSafe`. -/
theorem handles_exclusive (events : List (Event Admission)) (s : State Database Admission)
    (h : Runs.Run (Runs.restrict (Runs.ofExec (Transactions.exec Admission.program))
      fun s e => handleSafe s e) ⟨.empty, []⟩ events s) (c : CreatorPubky) (b : BundleId) :
    ¬ (s.db.foldedAuthPending c b ∧ s.db.taskExists c b) ∧ (s.db.tasksOf c b).length ≤ 1 := by
  have hinv : HandleInvariant s :=
    h.invariant handleInvariant_init fun _ _ _ hi hs => handleInvariant_exec hi hs.2 hs.1
  constructor
  · rintro ⟨hp, ht⟩
    obtain ⟨a, ha, rfl, rfl, hs⟩ := foldedAuthPending_iff.1 hp
    exact hinv.committed.apart a ha hs ht
  · refine Table.length_le_one_of_pairwise (hinv.committed.tasks.filter _) fun r hr q hq hne => hne ?_
    obtain ⟨-, hrc, hrb⟩ := mem_tasksOf.1 hr
    obtain ⟨-, hqc, hqb⟩ := mem_tasksOf.1 hq
    exact ⟨hqc.trans hrc.symm, hqb.trans hrb.symm⟩

/-- A start for a handle, and a payment task for the same handle. -/
def startThenPayment : List (Event Admission) :=
  let resource := PubkyLockResource.of ⟨"creator"⟩ (LockId.fromHash (.replicate 7))
  let payment : AdmitPaymentTask :=
    ⟨⟨⟨1⟩⟩, ⟨2, ⟨"bundle"⟩, resource, some ⟨"reader"⟩⟩, .replicate 7,
      ⟨⟨"creator"⟩, "1000", "BTC", 1⟩, 600⟩
  [.begin 1 (.startOrRotate followStart 0), .check 1, .check 1, .commit 1,
    .begin 2 (.admitPaymentTask payment 0), .check 2, .check 2, .check 2, .commit 2]

/-- The two transactions commit, and the handle has a pending attempt and a
    task. -/
theorem payment_beside_attempt :
    ∃ s, Runs.execList (Transactions.exec Admission.program) ⟨.empty, []⟩ startThenPayment = some s ∧
      s.db.foldedAuthPending ⟨"creator"⟩ ⟨"bundle"⟩ ∧ s.db.taskExists ⟨"creator"⟩ ⟨"bundle"⟩ := by
  have h : (Runs.execList (Transactions.exec program) ⟨.empty, []⟩
    startThenPayment).isSome := rfl
  exact ⟨_, (Option.some_get h).symm, rfl, rfl⟩

/-- The start, and the acceptance of its attempt. -/
def startThenAccept : List (Event Admission) :=
  startThenPayment.take 4 ++
    [.begin 2 (.acceptAndInsertGraphTask startedAttempt ⟨⟨1⟩⟩ ⟨"reader"⟩ (Duration.seconds 60)),
      .check 2, .commit 2]

theorem accepted_exclusive :
    ∃ s, Runs.execList (Runs.guarded (Transactions.exec Admission.program) handleSafe) ⟨.empty, []⟩
        startThenAccept = some s ∧
      s.db.taskExists ⟨"creator"⟩ ⟨"bundle"⟩ ∧ ¬ s.db.foldedAuthPending ⟨"creator"⟩ ⟨"bundle"⟩ ∧
      (s.db.tasksOf ⟨"creator"⟩ ⟨"bundle"⟩).length ≤ 1 := by
  have h : (Runs.execList (Runs.guarded (Transactions.exec program) handleSafe)
    ⟨.empty, []⟩ startThenAccept).isSome := by decide +kernel
  have hex := handles_exclusive _ _ (Runs.run_of_guarded _ handleSafe (Option.some_get h).symm)
    ⟨"creator"⟩ ⟨"bundle"⟩
  exact ⟨_, (Option.some_get h).symm, rfl, fun hp => hex.1 ⟨hp, rfl⟩, hex.2⟩

end PubkyLocks
