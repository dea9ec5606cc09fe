/-
  The transactions of the service as they interleave.

  A transaction that takes the advisory lock of a content lock
  (`lock_proof_admission`) decides on what it reads under it, statement by
  statement, while other transactions commit.  `Transaction.program` gives the
  reads in their order and the writes; what a statement reads with
  `FOR UPDATE`, or as the guard of an update, belongs to the writes.  The snapshot
  statement of `insert_job` is such a read, and its rows are part of the label.
-/
import PubkyLocks.Store.RowSteps

namespace PubkyLocks

open Database TaskRow Table

open Transactions (Program Open State Event Exclusive)

/-! ## Transactions -/

/-- A transaction, with what its reads returned.  A `single` one reads only rows
    it locks. -/
inductive Transaction where
  | admission (a : Admission)
  | beginPublication (creator : CreatorPubky) (lockId : LockId)
  | insertJob (job : DeletionJob) (rows : List TaskSnapshotRow) (admissionCutoff : Timestamp)
  | resumeFailedJob (creator : CreatorPubky) (lockId : LockId)
  | prepareForceDeletion (creator : CreatorPubky) (lockId : LockId)
      (manifest : Option ContentLock) (now : Timestamp) (known : Bool)
  | completeForceDeletion (creator : CreatorPubky) (lockId : LockId) (l : JobLease)
      (now : Timestamp)
  | single (op : Operation)

namespace Deletion

def snapshotRows (db : Database) (job : DeletionJob) : List TaskSnapshotRow :=
  (db.tasks.filter (ofLock job.creator job.lockId)).map fun r =>
    snapshotOf job.jobId (fun _ => r.status) r

def seenIn (rows : List TaskSnapshotRow) (id : TaskId) : VerificationTaskStatus :=
  ((rows.find? (·.verificationTaskId == id)).map (·.statusAtCutoff)).getD .pending

def freezeRows (job : DeletionJob) (rows : List TaskSnapshotRow) : TaskUpdate where
  guard := fun r => rows.any (·.verificationTaskId == r.taskId)
  set := (freeze job.jobId job.creator job.lockId).set

/-- The writes of `insert_job`; they are rolled back if a publication has begun. -/
def insertJobWrites (db : Database) (job : DeletionJob) (rows : List TaskSnapshotRow)
    (admissionCutoff : Timestamp) : Option Database :=
  if jobKeyFree db job && !db.tasks.any (fun r =>
      (freezeRows job rows).guard r && inPublication r) then
    { db with
      jobs := job.stored admissionCutoff :: db.jobs
      snapshots := rows ++ db.snapshots }.updateTasks (freezeRows job rows)
  else none

end Deletion

/-- The operation takes no advisory lock that the programs below need. -/
def Operation.unlocked : Operation → Bool
  | admission _ | beginPublication _ _ | insertJob _ _ _ | resumeFailedJob _ _
  | prepareForceDeletion _ _ _ _ | completeForceDeletion _ _ => false
  | _ => true

namespace Transaction

/-- The content lock whose advisory lock the transaction takes. -/
def lock? : Transaction → Option (CreatorPubky × LockId)
  | admission a => some (a.creator, a.lockId)
  | beginPublication c l | resumeFailedJob c l | prepareForceDeletion c l _ _ _
  | completeForceDeletion c l _ _ => some (c, l)
  | insertJob job _ _ => some (job.creator, job.lockId)
  | single _ => none

def operation : Transaction → Operation
  | admission a => .admission a
  | beginPublication c l => .beginPublication c l
  | insertJob job rows t => .insertJob job (Deletion.seenIn rows) t
  | resumeFailedJob c l => .resumeFailedJob c l
  | prepareForceDeletion c l manifest now _ => .prepareForceDeletion c l manifest now
  | completeForceDeletion _ _ l now => .completeForceDeletion l now
  | single op => op

variable (E : Externals)

def checks : Transaction → List (Database → Bool)
  | admission a => a.checks
  | beginPublication c l => [fun db => !db.deletionCutoff c l]
  | insertJob job rows _ =>
    [fun _ => (job.validateFrozenIdentity E).isOk && (job.validateState false).isOk,
      fun db => !db.tasks.any fun r =>
        ofLock job.creator job.lockId r && Deletion.inPublication r,
      fun db => !db.hasIntent job.creator job.lockId,
      fun db => !db.hasReceipt job.creator job.lockId,
      fun db => rows == Deletion.snapshotRows db job]
  | resumeFailedJob c l => [fun db => !db.hasReceipt c l]
  | prepareForceDeletion c l _ _ known =>
    [fun db => !db.hasIntent c l, fun db => db.hasReceipt c l == known]
  | completeForceDeletion c l lease _ =>
    [fun db => (db.job? lease.jobId).any fun j => j.creator == c && j.lockId == l]
  | single _ => []

def write : Transaction → Database → Option Database
  | admission a, db => a.write db
  | beginPublication c l, db =>
    if db.hasIntent c l then none else some { db with intents := ⟨c, l⟩ :: db.intents }
  | insertJob job rows t, db => Deletion.insertJobWrites db job rows t
  | resumeFailedJob c l, db =>
    if (db.jobFor? c l).any (·.state == .failed) then
      some (Deletion.updateJobFor db c l (·.restart))
    else none
  | prepareForceDeletion c l manifest now known, db =>
    Deletion.forcePrepared db c l manifest now
      (if known then .known else Deletion.jobForcePreparation db c l manifest)
  | completeForceDeletion _ _ lease now, db => Deletion.completeForceDeletion db lease now
  | single op, db => if op.unlocked then op.run E db else none

def locks : Transaction → List AdmissionLock
  | admission a => a.locks
  | t => t.lock?.toList.map fun key => .lock key.1 key.2

def program (t : Transaction) : Program Database AdmissionLock where
  locks := t.locks
  checks := t.checks E
  write := t.write E

variable {E} {t : Transaction}

theorem lock_mem_locks {c : CreatorPubky} {l : LockId} (h : t.lock? = some (c, l)) :
    AdmissionLock.lock c l ∈ (t.program E).locks := by
  cases t with
  | admission a =>
    cases h
    exact List.mem_cons_self
  | single op => cases h
  | _ =>
    cases h
    exact List.mem_singleton_self _

end Transaction

/-! ## What is known of a lock -/

def Operation.Apart (db : Database) (c : CreatorPubky) (l : LockId) : Operation → Prop
  | admission a => ¬ (a.creator = c ∧ a.lockId = l)
  | beginPublication c' l' | prepareForceDeletion c' l' _ _ => ¬ (c' = c ∧ l' = l)
  | insertJob job _ _ => ¬ (job.creator = c ∧ job.lockId = l)
  | completeForceDeletion lease _ =>
    ∀ j ∈ db.jobs, j.jobId = lease.jobId → ¬ (j.creator = c ∧ j.lockId = l)
  | _ => True

/-- What transactions of other locks leave as it is: the intent, the receipt and
    the job of the lock, and which tasks it has. -/
structure LockKept (c : CreatorPubky) (l : LockId) (db db' : Database) : Prop where
  intent : db'.hasIntent c l → db.hasIntent c l
  receipt : db'.hasReceipt c l = db.hasReceipt c l
  job : (db'.jobFor? c l).isSome → (db.jobFor? c l).isSome
  jobKey : ∀ j ∈ db.jobs, j.creator = c → j.lockId = l →
    ∃ k ∈ db'.jobs, k.jobId = j.jobId ∧ k.creator = c ∧ k.lockId = l
  tasks : (db'.tasks.filter (ofLock c l)).map identity =
    (db.tasks.filter (ofLock c l)).map identity

variable {db db' : Database} {c : CreatorPubky} {l : LockId} {op : Operation}

theorem LockKept.refl : LockKept c l db db :=
  ⟨id, rfl, id, fun j hj hc hl => ⟨j, hj, rfl, hc, hl⟩, rfl⟩

theorem Database.ofLock_of_identity {r q : TaskRow} (h : q.identity = r.identity) :
    ofLock c l q = ofLock c l r := by
  simp only [ofLock, creator_of_identity h, resource_of_identity h]

theorem identities_updateWhere {p : TaskRow → Bool} {f : TaskRow → TaskRow}
    (hid : ∀ r ∈ db.tasks, p r → (f r).identity = r.identity) :
    ((updateWhere p f db.tasks).filter (ofLock c l)).map identity =
      (db.tasks.filter (ofLock c l)).map identity := by
  have hlist : ∀ tasks : List TaskRow, (∀ r ∈ tasks, p r → (f r).identity = r.identity) →
      ((updateWhere p f tasks).filter (ofLock c l)).map identity =
        (tasks.filter (ofLock c l)).map identity := by
    intro tasks
    induction tasks with
    | nil => exact fun _ => rfl
    | cons r tasks ih =>
      intro hid
      obtain ⟨hr, hid⟩ := List.forall_mem_cons.1 hid
      have hq : (if p r then f r else r).identity = r.identity := by
        split
        · rename_i hp
          exact hr hp
        · rfl
      have hof : ofLock c l _ = _ := ofLock_of_identity hq
      show (List.filter _ ((if p r then f r else r) :: updateWhere p f tasks)).map _ = _
      rw [List.filter_cons, List.filter_cons, hof]
      split
      · rw [List.map_cons, List.map_cons, hq, ih hid]
      · exact ih hid
  exact hlist db.tasks hid

theorem lockKept_jobs {p : DeletionJob → Bool} {f : DeletionJob → DeletionJob}
    (hu : JobUpdate db p f) (snapshots : List TaskSnapshotRow) :
    LockKept c l db { db with jobs := updateWhere p f db.jobs, snapshots } where
  intent := id
  receipt := rfl
  job := by
    intro h
    obtain ⟨j, hj, hc, hl⟩ := jobFor?_isSome_iff.1 h
    obtain ⟨k, hk, ⟨-, rfl⟩ | ⟨-, rfl⟩⟩ := mem_updateWhere.1 hj
    · rw [hu.creator] at hc
      rw [hu.lockId] at hl
      exact jobFor?_isSome_iff.2 ⟨k, hk, hc, hl⟩
    · exact jobFor?_isSome_iff.2 ⟨j, hk, hc, hl⟩
  jobKey := by
    intro j hj hc hl
    refine ⟨if p j then f j else j, List.mem_map.2 ⟨j, hj, rfl⟩, ?_⟩
    split
    · rw [hu.id, hu.creator, hu.lockId]
      exact ⟨rfl, hc, hl⟩
    · exact ⟨rfl, hc, hl⟩
  tasks := rfl

theorem lockKept_tasks {p : TaskRow → Bool} {f : TaskRow → TaskRow}
    (hid : ∀ r ∈ db.tasks, p r → (f r).identity = r.identity) (snapshots : List TaskSnapshotRow) :
    LockKept c l db { db with tasks := updateWhere p f db.tasks, snapshots } where
  intent := id
  receipt := rfl
  job := id
  jobKey := LockKept.refl.jobKey
  tasks := identities_updateWhere hid

/-- **Transactions of other locks** keep what is known of a lock. -/
theorem lockKept_of_effect (h : Effect db op db') (hop : op.Apart db c l) :
    LockKept c l db db' := by
  cases h with
  | admitted a r attempts hr htargets =>
    have hof : ¬ ofLock c l r := by
      rw [ofLock_iff]
      rintro ⟨hc, hres⟩
      refine hop ⟨htargets.creator.symm.trans hc, htargets.lockId.symm.trans ?_⟩
      rw [hres]
      rfl
    exact { LockKept.refl with
      tasks := by rw [List.filter_cons_of_neg hof] }
  | attempts op attempts => exact { LockKept.refl with }
  | intents op intents hi =>
    refine { LockKept.refl with intent := fun h => ?_ }
    obtain ⟨i, hmem, hc, hl⟩ := hasIntent_iff.1 h
    rcases hi i hmem with hold | ⟨rfl, -⟩
    · exact hasIntent_iff.2 ⟨i, hold, hc, hl⟩
    · exact absurd ⟨hc, hl⟩ hop
  | statement st snapshots hst _ _ =>
    refine lockKept_tasks (fun r _ hg => ?_) snapshots
    exact identity_of_rowStep (RowStep.statement st hst hg)
  | jobInserted job seen t hkey _ _ =>
    refine ⟨id, rfl, fun h => ?_, fun j hj hc hl => ?_, identities_updateWhere fun _ _ _ => rfl⟩
    · obtain ⟨j, hj, hc, hl⟩ := jobFor?_isSome_iff.1 h
      rcases List.mem_cons.1 hj with rfl | hj
      · exact absurd ⟨hc, hl⟩ hop
      · exact jobFor?_isSome_iff.2 ⟨j, hj, hc, hl⟩
    · exact ⟨j, List.mem_cons_of_mem _ hj, rfl, hc, hl⟩
  | jobsUpdated op p f snapshots hu _ => exact lockKept_jobs hu snapshots
  | expired lease now snapshots _ _ _ =>
    refine lockKept_tasks (fun r _ _ => ?_) snapshots
    exact (Deletion.expireUnresolved_frame db lease.jobId now r).identity
  | receiptsUpdated op p f hkey =>
    exact { LockKept.refl with receipt := hasReceipt_updateWhere hkey }
  | receiptWritten c' l' m frozen now _ =>
    refine { LockKept.refl with receipt := ?_ }
    rw [Bool.eq_iff_iff, hasReceipt_cons]
    exact or_iff_right hop
  | forceCompleted lease now job receipt hjob hid _ hkey =>
    have hapart := hop job hjob hid
    refine ⟨id, ?_, fun h => ?_, fun j hj hc hl => ?_, identities_updateWhere fun _ _ _ => rfl⟩
    · refine Bool.eq_iff_iff.2 (hasReceipt_cons.trans (or_iff_right ?_))
      rw [hkey.1, hkey.2]
      exact hapart
    · obtain ⟨j, hj, hc, hl⟩ := jobFor?_isSome_iff.1 h
      exact jobFor?_isSome_iff.2 ⟨j, List.mem_of_mem_filter hj, hc, hl⟩
    · refine ⟨j, List.mem_filter.2 ⟨hj, ?_⟩, rfl, hc, hl⟩
      rw [bne_iff_ne]
      exact fun he => hop j hj he ⟨hc, hl⟩

theorem LockKept.cutoff (h : LockKept c l db db') (hcut : db.deletionCutoff c l = false) :
    db'.deletionCutoff c l = false := by
  rw [deletionCutoff, Bool.or_eq_false_iff, ← Bool.not_eq_true] at hcut ⊢
  exact ⟨fun hjob => hcut.1 (h.job hjob), h.receipt.trans hcut.2⟩

/-! ## What an open transaction relies on -/

/-- The checks of an admission that a transaction of another lock cannot undo:
    those of its input, and the cutoff. -/
def Admission.keepsCheck : Admission → ℕ → Bool
  | insertVerificationTask _, k => k == 0 || k == 4
  | insertInvoicePendingTask _ _ _, k => k == 1 || k == 4
  | insertGraphTask _, k => k == 0 || k == 3
  | admitPaymentTask _ _, k => k == 2
  | startOrRotate _ _, _ | acceptAndInsertGraphTask _ _ _ _, _ => false

/-- The checks that a transaction of another lock cannot undo.  `insert_job`
    reads the publications of the tasks and the snapshot rows without such a
    guarantee. -/
def Transaction.keepsCheck : Transaction → ℕ → Bool
  | admission a, k => a.keepsCheck k
  | insertJob _ _ _, k => k == 0 || k == 2 || k == 3
  | _, _ => true

/-- The snapshot rows are those of the tasks of the lock, with the statuses they
    show. -/
def Deletion.RowsOf (db : Database) (job : DeletionJob) (rows : List TaskSnapshotRow) : Prop :=
  rows = (db.tasks.filter (ofLock job.creator job.lockId)).map
    (snapshotOf job.jobId (seenIn rows))

/-- A transaction that has read the snapshot rows relies on them. -/
def Transaction.RowsRead (db : Database) (n : ℕ) : Transaction → Prop
  | insertJob job rows _ => 4 < n → Deletion.RowsOf db job rows
  | _ => True

structure Transaction.Relies (E : Externals) (t : Transaction) (n : ℕ) (db : Database) : Prop where
  checks : ∀ k < n, t.keepsCheck k → ∀ c, (t.checks E)[k]? = some c → c db
  rows : t.RowsRead db n

variable {E : Externals} {t : Transaction} {n : ℕ}

namespace Deletion

variable {job : DeletionJob} {rows : List TaskSnapshotRow}

theorem seenIn_snapshotRows (hs : db.Sound) {r : TaskRow} (hr : r ∈ db.tasks)
    (hof : ofLock job.creator job.lockId r) :
    seenIn (snapshotRows db job) r.taskId = r.status := by
  have hmem : snapshotOf job.jobId (fun _ => r.status) r ∈ snapshotRows db job :=
    List.mem_map.2 ⟨r, List.mem_filter.2 ⟨hr, hof⟩, rfl⟩
  unfold seenIn
  cases hfind : (snapshotRows db job).find? (·.verificationTaskId == r.taskId) with
  | none => exact absurd (beq_self_eq_true r.taskId) (List.find?_eq_none.1 hfind _ hmem)
  | some s =>
    obtain ⟨q, hq, rfl⟩ := List.mem_map.1 (List.mem_of_find?_eq_some hfind)
    have hid := List.find?_some hfind
    rw [beq_iff_eq] at hid
    rw [List.inj_on_of_nodup_map hs.taskIds (List.mem_of_mem_filter hq) hr hid]
    rfl

theorem rowsOf_snapshotRows (hs : db.Sound) : RowsOf db job (snapshotRows db job) := by
  refine List.map_congr_left fun r hr => ?_
  obtain ⟨hr, hof⟩ := List.mem_filter.1 hr
  simp only [snapshotOf, seenIn_snapshotRows hs hr hof]

theorem RowsOf.kept (h : RowsOf db job rows)
    (hk : LockKept job.creator job.lockId db db') : RowsOf db' job rows := by
  refine Eq.trans h (map_eq_of_map_eq (fun r q hid => ?_) hk.tasks).symm
  simp only [snapshotOf, taskId_of_identity hid, hasPaykitProof_of_identity hid]

theorem RowsOf.guard (hs : db.Sound) (h : RowsOf db job rows) {r : TaskRow} (hr : r ∈ db.tasks) :
    (freezeRows job rows).guard r = ofLock job.creator job.lockId r := by
  rw [Bool.eq_iff_iff]
  show rows.any _ = true ↔ _
  rw [h, List.any_eq_true]
  constructor
  · rintro ⟨s, hmem, hid⟩
    obtain ⟨q, hq, rfl⟩ := List.mem_map.1 hmem
    obtain ⟨hq, hof⟩ := List.mem_filter.1 hq
    rw [← List.inj_on_of_nodup_map hs.taskIds hq hr (beq_iff_eq.1 hid)]
    exact hof
  · intro hof
    exact ⟨_, List.mem_map.2 ⟨r, List.mem_filter.2 ⟨hr, hof⟩, rfl⟩, beq_self_eq_true r.taskId⟩

theorem insertJobWrites_eq (hs : db.Sound) (h : RowsOf db job rows) (t : Timestamp)
    (hvalid : (job.validateFrozenIdentity E).isOk && (job.validateState false).isOk)
    (hintent : db.hasIntent job.creator job.lockId = false)
    (hreceipt : db.hasReceipt job.creator job.lockId = false) :
    insertJobWrites db job rows t = insertJob E db job (seenIn rows) t := by
  have hguard := fun r (hr : r ∈ db.tasks) => h.guard hs hr
  have hpub : (db.tasks.any fun r => (freezeRows job rows).guard r && inPublication r) =
      db.tasks.any fun r => ofLock job.creator job.lockId r && inPublication r := by
    rw [Bool.eq_iff_iff, List.any_eq_true, List.any_eq_true]
    exact exists_congr fun r => and_congr_right fun hr => by rw [hguard r hr]
  have hall : (db.tasks.all fun r => !(freezeRows job rows).guard r ||
      ((freezeRows job rows).set r).checks) =
      db.tasks.all fun r => !(freeze job.jobId job.creator job.lockId).guard r ||
        ((freeze job.jobId job.creator job.lockId).set r).checks := by
    rw [Bool.eq_iff_iff, List.all_eq_true, List.all_eq_true]
    exact forall₂_congr fun r hr => by rw [hguard r hr]; rfl
  have hupdate : updateWhere (freezeRows job rows).guard (freezeRows job rows).set db.tasks =
      updateWhere (freeze job.jobId job.creator job.lockId).guard
        (freeze job.jobId job.creator job.lockId).set db.tasks :=
    updateWhere_congr fun r hr => hguard r hr
  have hrows : (db.tasks.filter (ofLock job.creator job.lockId)).map
      (snapshotOf job.jobId (seenIn rows)) = rows := h.symm
  unfold insertJobWrites insertJob updateTasks
  simp only [hvalid, hintent, hreceipt, hpub, hall, hupdate, hrows, Bool.not_false, Bool.true_and,
    Bool.and_true, Bool.and_comm (jobKeyFree db job)]

end Deletion

/-! ## Commits -/

theorem Transaction.Relies.passed (hr : t.Relies E (t.checks E).length db) {k : ℕ}
    (hk : t.keepsCheck k) {f : Database → Bool} (hf : (t.checks E)[k]? = some f) : f db :=
  hr.checks k (List.getElem?_eq_some_iff.1 hf).1 hk f hf

theorem Admission.spec_of_kept {a : Admission}
    (h : ∀ k, a.keepsCheck k → ∀ f, a.checks[k]? = some f → f db) :
    a.inputValid ∧ (a.checksCutoff → db.deletionCutoff a.creator a.lockId = false) := by
  cases a with
  | insertVerificationTask t =>
    have hcut := h 4 rfl _ rfl
    exact ⟨h 0 rfl _ rfl, fun _ => by simpa using hcut⟩
  | insertInvoicePendingTask t intent dbNow =>
    have hcut := h 4 rfl _ rfl
    exact ⟨h 1 rfl _ rfl, fun _ => by simpa using hcut⟩
  | insertGraphTask t =>
    have hcut := h 3 rfl _ rfl
    exact ⟨h 0 rfl _ rfl, fun _ => by simpa using hcut⟩
  | admitPaymentTask q dbNow =>
    have hcut := h 2 rfl _ rfl
    exact ⟨rfl, fun _ => by simpa using hcut⟩
  | startOrRotate q dbNow => exact ⟨rfl, by rintro ⟨⟩⟩
  | acceptAndInsertGraphTask attempt taskId reader dbNow => exact ⟨rfl, by rintro ⟨⟩⟩

section
variable (hs : db.Sound) (hr : t.Relies E (t.checks E).length db) (hw : t.write E db = some db')
include hs hr hw

theorem commit_run (ha : ∀ a, t ≠ .admission a) : t.operation.run E db = some db' := by
  cases t with
  | admission a => exact absurd rfl (ha a)
  | beginPublication c l =>
    have hcut := hr.passed (k := 0) rfl rfl
    rw [Bool.not_eq_true'] at hcut
    simp only [Transaction.operation, Operation.run, hcut, Bool.false_or]
    exact hw
  | insertJob job rows t =>
    have hvalid := hr.passed (k := 0) rfl rfl
    have hintent := hr.passed (k := 2) rfl rfl
    have hreceipt := hr.passed (k := 3) rfl rfl
    rw [Bool.not_eq_true'] at hintent hreceipt
    refine Eq.trans ?_ hw
    exact (Deletion.insertJobWrites_eq hs (hr.rows (Nat.lt_succ_self 4)) t hvalid hintent
      hreceipt).symm
  | resumeFailedJob c l =>
    have hreceipt := hr.passed (k := 0) rfl rfl
    rw [Bool.not_eq_true'] at hreceipt
    simp only [Transaction.operation, Operation.run, Deletion.resumeFailedJob, hreceipt,
      Bool.not_false, Bool.true_and]
    exact hw
  | prepareForceDeletion c l manifest now known =>
    have hintent := hr.passed (k := 0) rfl rfl
    have hreceipt := hr.passed (k := 1) rfl rfl
    rw [Bool.not_eq_true'] at hintent
    rw [beq_iff_eq] at hreceipt
    simp only [Transaction.operation, Operation.run, Deletion.prepareForceDeletion,
      Deletion.forcePreparation, hintent, hreceipt, Bool.false_eq_true, if_false]
    exact hw
  | completeForceDeletion c l lease now => exact hw
  | single op =>
    simp only [Transaction.write] at hw
    split at hw
    · exact hw
    · cases hw

/-- **A commit** does what the transaction taken in one step can do. -/
theorem commit_effect : Effect db t.operation db' := by
  by_cases ha : ∃ a, t = .admission a
  · obtain ⟨a, rfl⟩ := ha
    obtain ⟨hv, hcut⟩ := Admission.spec_of_kept fun k hk f hf => hr.passed hk hf
    rcases Admission.write_spec hv hcut hw with
      ⟨r, hadm, htargets, attempts, rfl⟩ | ⟨attempts, rfl⟩
    · exact .admitted a r attempts hadm htargets
    · exact .attempts _ attempts
  · exact effect_of_run hs (commit_run hs hr hw fun a h => ha ⟨a, h⟩)

theorem Transaction.Relies.apart (hl : t.lock? ≠ some (c, l)) : t.operation.Apart db c l := by
  have hpair : ∀ c' l', t.lock? = some (c', l') → ¬ (c' = c ∧ l' = l) := by
    rintro c' l' ht ⟨rfl, rfl⟩
    exact hl ht
  cases t with
  | admission a => exact hpair _ _ rfl
  | beginPublication c' l' => exact hpair _ _ rfl
  | insertJob job rows t => exact hpair _ _ rfl
  | resumeFailedJob c' l' => trivial
  | prepareForceDeletion c' l' manifest now known => exact hpair _ _ rfl
  | completeForceDeletion c' l' lease now =>
    intro j hj hid
    obtain ⟨k, hk, hkey⟩ := (Option.any_eq_true _ _).1 (hr.passed (k := 0) rfl rfl)
    obtain ⟨hmem, hkid⟩ := job?_eq_some hk
    rw [Bool.and_eq_true, beq_iff_eq, beq_iff_eq] at hkey
    rw [hs.eq_of_jobId hj hmem (hid.trans hkid.symm), hkey.1, hkey.2]
    exact hpair _ _ rfl
  | single op =>
    simp only [Transaction.write] at hw
    split at hw
    · rename_i hop
      cases op <;> trivial
    · cases hw

end

/-! ## Interleavings -/

theorem Admission.check_kept {a : Admission} (hk : LockKept a.creator a.lockId db db') {k : ℕ}
    (hkeeps : a.keepsCheck k) {f : Database → Bool} (hf : a.checks[k]? = some f) (hdb : f db) :
    f db' := by
  -- the cutoff is the only kept check that reads the tables
  have hcutoff : (!db.deletionCutoff a.creator a.lockId) = true →
      (!db'.deletionCutoff a.creator a.lockId) = true := by
    rw [Bool.not_eq_true', Bool.not_eq_true']
    exact hk.cutoff
  cases a with
  | insertVerificationTask t =>
    simp only [keepsCheck, Bool.or_eq_true, beq_iff_eq] at hkeeps
    rcases hkeeps with rfl | rfl
    · cases hf
      exact hdb
    · cases hf
      exact hcutoff hdb
  | insertInvoicePendingTask t intent dbNow =>
    simp only [keepsCheck, Bool.or_eq_true, beq_iff_eq] at hkeeps
    rcases hkeeps with rfl | rfl
    · cases hf
      exact hdb
    · cases hf
      exact hcutoff hdb
  | insertGraphTask t =>
    simp only [keepsCheck, Bool.or_eq_true, beq_iff_eq] at hkeeps
    rcases hkeeps with rfl | rfl
    · cases hf
      exact hdb
    · cases hf
      exact hcutoff hdb
  | admitPaymentTask q dbNow =>
    simp only [keepsCheck, beq_iff_eq] at hkeeps
    subst hkeeps
    cases hf
    exact hcutoff hdb
  | startOrRotate q dbNow => cases hkeeps
  | acceptAndInsertGraphTask attempt taskId reader dbNow => cases hkeeps

theorem Transaction.check_kept (hs' : db'.Sound) (hlock : t.lock? = some (c, l))
    (hk : LockKept c l db db') {k : ℕ} (hkeeps : t.keepsCheck k) {f : Database → Bool}
    (hf : (t.checks E)[k]? = some f) (hdb : f db) : f db' := by
  have hintent : (!db.hasIntent c l) = true → (!db'.hasIntent c l) = true := by
    rw [Bool.not_eq_true', Bool.not_eq_true', ← Bool.not_eq_true, ← Bool.not_eq_true]
    exact mt hk.intent
  cases t with
  | admission a =>
    cases hlock
    exact Admission.check_kept hk hkeeps hf hdb
  | beginPublication c l =>
    cases hlock
    obtain rfl := List.mem_singleton.1 (List.mem_of_getElem? hf)
    rw [Bool.not_eq_true'] at hdb ⊢
    exact hk.cutoff hdb
  | insertJob job rows t =>
    cases hlock
    simp only [keepsCheck, Bool.or_eq_true, beq_iff_eq] at hkeeps
    rcases hkeeps with (rfl | rfl) | rfl
    · cases hf
      exact hdb
    · cases hf
      exact hintent hdb
    · cases hf
      simpa [hk.receipt] using hdb
  | resumeFailedJob c l =>
    cases hlock
    obtain rfl := List.mem_singleton.1 (List.mem_of_getElem? hf)
    simpa [hk.receipt] using hdb
  | prepareForceDeletion c l manifest now known =>
    cases hlock
    rcases List.mem_pair.1 (List.mem_of_getElem? hf) with rfl | rfl
    · exact hintent hdb
    · simpa [hk.receipt] using hdb
  | completeForceDeletion c l lease now =>
    cases hlock
    obtain rfl := List.mem_singleton.1 (List.mem_of_getElem? hf)
    obtain ⟨j, hj, hkey⟩ := (Option.any_eq_true _ _).1 hdb
    obtain ⟨hmem, hid⟩ := job?_eq_some hj
    rw [Bool.and_eq_true, beq_iff_eq, beq_iff_eq] at hkey
    obtain ⟨j', hmem', hid', hc', hl'⟩ := hk.jobKey j hmem hkey.1 hkey.2
    refine (Option.any_eq_true _ _).2 ?_
    cases hfind : db'.job? lease.jobId with
    | none => exact absurd (beq_iff_eq.2 (hid'.trans hid)) (List.find?_eq_none.1 hfind j' hmem')
    | some k =>
      obtain ⟨hkmem, hkid⟩ := job?_eq_some hfind
      refine ⟨k, rfl, ?_⟩
      rw [hs'.eq_of_jobId hkmem hmem' (hkid.trans (hid'.trans hid).symm), hc', hl']
      simp
  | single op => cases hlock

theorem Transaction.Relies.kept (hr : t.Relies E n db) (hs' : db'.Sound)
    (hk : ∀ c l, t.lock? = some (c, l) → LockKept c l db db') : t.Relies E n db' := by
  cases hlock : t.lock? with
  | none =>
    cases t with
    | single op => exact ⟨fun k _ _ f hf => (by cases hf), trivial⟩
    | _ => cases hlock
  | some key =>
    obtain ⟨c, l⟩ := key
    have hk := hk c l hlock
    refine ⟨fun k hn hkeeps f hf => ?_, ?_⟩
    · exact check_kept hs' hlock hk hkeeps hf (hr.checks k hn hkeeps f hf)
    · cases t with
      | insertJob job rows t =>
        cases hlock
        exact fun hn => (hr.rows hn).kept hk
      | _ => trivial

theorem Transaction.relies_zero : t.Relies E 0 db := by
  refine ⟨fun k hk => absurd hk (Nat.not_lt_zero k), ?_⟩
  cases t with
  | insertJob job rows t => exact fun hn => absurd hn (Nat.not_lt_zero 4)
  | _ => trivial

theorem Transaction.Relies.check (hs : db.Sound) (hr : t.Relies E n db) {f : Database → Bool}
    (hf : (t.checks E)[n]? = some f) (hdb : f db) : t.Relies E (n + 1) db := by
  refine ⟨fun k hk hkeeps f' hf' => ?_, ?_⟩
  · rcases Nat.lt_or_ge k n with hlt | hge
    · exact hr.checks k hlt hkeeps f' hf'
    · obtain rfl : k = n := by omega
      cases hf.symm.trans hf'
      exact hdb
  · cases t with
    | insertJob job rows t =>
      intro hn
      rcases Nat.lt_or_ge 4 n with hlt | hge
      · exact hr.rows hlt
      · obtain rfl : n = 4 := by omega
        cases hf
        rw [beq_iff_eq.1 hdb]
        exact Deletion.rowsOf_snapshotRows hs
    | _ => trivial

structure Consistent (E : Externals) (s : State Database Transaction) : Prop where
  locks : Exclusive (Transaction.program E) s
  sound : s.db.Sound
  relies : Transactions.Knows (Transaction.Relies E) s

theorem consistent_init : Consistent E ⟨.empty, []⟩ :=
  ⟨List.Pairwise.nil, sound_empty, List.forall_mem_nil _⟩

/-- **One event** keeps the interleaved system consistent, and a commit is a
    transaction taken in one step. -/
theorem consistent_exec {s s' : State Database Transaction} {e : Event Transaction}
    (h : Consistent E s) (hstep : Transactions.exec (Transaction.program E) s e = some s') :
    Consistent E s' ∧ (s'.db = s.db ∨
      ∃ t ∈ s.active, t.label.Relies E (t.label.checks E).length s.db ∧
        t.label.write E s.db = some s'.db ∧ Effect s.db t.label.operation s'.db) := by
  have hcommits : ∀ t ∈ s.active, t.passed = (t.label.checks E).length →
      t.label.write E s.db = some s'.db →
      t.label.Relies E (t.label.checks E).length s.db ∧ Effect s.db t.label.operation s'.db := by
    intro t ht hp hw
    have hr := h.relies t ht
    rw [hp] at hr
    exact ⟨hr, commit_effect h.sound hr hw⟩
  have hdb : s'.db = s.db ∨ ∃ t ∈ s.active, t.passed = (t.label.checks E).length ∧
      t.label.write E s.db = some s'.db := by
    rcases Transactions.exec_cases hstep with ⟨id, label, -, -, -, rfl⟩ |
      ⟨t, ht, c, -, -, -, rfl⟩ | ⟨t, ht, -, hp, hw, -⟩ | ⟨id, -, rfl⟩
    · exact .inl rfl
    · exact .inl rfl
    · exact .inr ⟨t, ht, hp, hw⟩
    · exact .inl rfl
  have hsound : s'.db.Sound := by
    rcases hdb with hdb | ⟨t, ht, hp, hw⟩
    · rw [hdb]
      exact h.sound
    · exact sound_of_effect h.sound (hcommits t ht hp hw).2
  refine ⟨⟨Transactions.exclusive_exec h.locks hstep, hsound, ?_⟩, ?_⟩
  · refine Transactions.knows_exec h.relies hstep ?_ ?_ ?_
    · exact fun _ _ _ => Transaction.relies_zero
    · exact fun _ _ _ hc hcdb hr => hr.check h.sound hc hcdb
    · intro t ht hp hw u hu hne hr
      obtain ⟨hrt, heffect⟩ := hcommits t ht hp hw
      refine hr.kept hsound fun c l hlock => lockKept_of_effect heffect ?_
      refine hrt.apart h.sound hw fun htl => hne ?_
      exact h.locks.eq_of_lock hu ht (Transaction.lock_mem_locks hlock)
        (Transaction.lock_mem_locks htl)
  · rcases hdb with hdb | ⟨t, ht, hp, hw⟩
    · exact .inl hdb
    · exact .inr ⟨t, ht, (hcommits t ht hp hw).1, hw, (hcommits t ht hp hw).2⟩

end PubkyLocks
