/-
  Force receipts are permanent and exclusive.
-/
import PubkyLocks.Drains.AccessInvariants
import PubkyLocks.Store.ForceFence
import PubkyLocks.Store.Interleavings

namespace PubkyLocks

open Deletion Database

open Transactions (Program Open State Event Exclusive)

/-! ## Receipts -/

/-- What a transaction does to a receipt. -/
inductive ReceiptStep (f : ForceReceipt) : ForceReceipt → Prop
  | kept : ReceiptStep f f
  | filled (manifest : Option ContentLock) : f.frozenContentLock = none →
      ReceiptStep f { f with frozenContentLock := manifest }
  | completed (completedAt : Timestamp) :
      ReceiptStep f { f with completedAt := some (f.completedAt.getD completedAt) }

structure ForceReceipt.Stays (f g : ForceReceipt) : Prop where
  creator : g.creator = f.creator
  lockId : g.lockId = f.lockId
  forcedAt : g.forcedAt = f.forcedAt
  completedAt : f.completedAt.isSome → g.completedAt = f.completedAt
  frozen : f.frozenContentLock.isSome → g.frozenContentLock = f.frozenContentLock

variable {E : Externals} {db db' : Database} {f g : ForceReceipt} {op : Operation}

theorem ForceReceipt.Stays.refl : f.Stays f :=
  ⟨rfl, rfl, rfl, fun _ => rfl, fun _ => rfl⟩

theorem ForceReceipt.Stays.trans {h : ForceReceipt} (h₁ : f.Stays g) (h₂ : g.Stays h) :
    f.Stays h where
  creator := h₂.creator.trans h₁.creator
  lockId := h₂.lockId.trans h₁.lockId
  forcedAt := h₂.forcedAt.trans h₁.forcedAt
  completedAt := by
    intro hf
    have hg := h₁.completedAt hf
    rw [h₂.completedAt (hg ▸ hf), hg]
  frozen := by
    intro hf
    have hg := h₁.frozen hf
    rw [h₂.frozen (hg ▸ hf), hg]

theorem ReceiptStep.stays (h : ReceiptStep f g) : f.Stays g := by
  cases h with
  | kept => exact .refl
  | filled manifest hnone => exact ⟨rfl, rfl, rfl, fun _ => rfl, fun hf => by simp [hnone] at hf⟩
  | completed t =>
    refine ⟨rfl, rfl, rfl, fun hf => ?_, fun _ => rfl⟩
    obtain ⟨u, hu⟩ := Option.isSome_iff_exists.1 hf
    simp [hu]

theorem fillManifest_step (manifest : Option ContentLock) (f : ForceReceipt) :
    ReceiptStep f (fillManifest manifest f) := by
  unfold fillManifest
  split
  · rename_i hc
    rw [Bool.and_eq_true, Option.isNone_iff_eq_none, Option.isNone_iff_eq_none] at hc
    exact .filled manifest hc.2
  · exact .kept

/-- What a transaction does to the table of receipts. -/
inductive ReceiptsEffect (db : Database) : List ForceReceipt → Prop
  | steps (receipts : List ForceReceipt) : List.Forall₂ ReceiptStep db.receipts receipts →
      ReceiptsEffect db receipts
  | written (f : ForceReceipt) : ¬ db.hasReceipt f.creator f.lockId →
      ReceiptsEffect db (f :: db.receipts)

theorem ReceiptsEffect.same : ReceiptsEffect db db.receipts :=
  .steps _ (List.forall₂_same.2 fun _ _ => .kept)

theorem receipts_of_prepareForceDeletion {c : CreatorPubky} {l : LockId} {m : Option ContentLock}
    {now : Timestamp} (h : prepareForceDeletion db c l m now = some db') :
    ReceiptsEffect db db'.receipts := by
  unfold prepareForceDeletion forcePrepared at h
  split at h
  · cases h
  · cases h
    exact .steps _ (Table.forall₂_updateWhere (fun f _ _ => fillManifest_step m f)
      fun _ _ _ => .kept)
  · cases h
    exact .same
  · cases h
    exact .same
  · rename_i hp
    cases h
    exact .written _ (forcePreparation_no_receipt hp (by simp) (by simp))

/-- **Receipts.**  A transaction takes every receipt one step, or writes one of a
    lock without a receipt. -/
theorem receipts_of_run (h : op.run E db = some db') : ReceiptsEffect db db'.receipts := by
  cases op with
  | prepareForceDeletion c l m now => exact receipts_of_prepareForceDeletion h
  | completeSynchronousForceDeletion c l t =>
    simp only [Operation.run, completeSynchronousForceDeletion] at h
    split at h
    · cases h
      exact .steps _ (Table.forall₂_updateWhere (fun _ _ _ => .completed t) fun _ _ _ => .kept)
    · cases h
  | completeForceDeletion l now =>
    simp only [Operation.run, completeForceDeletion] at h
    split at h
    · cases h
    · split at h
      · cases h
      · split at h
        · cases h
        · rename_i hnone
          cases h
          exact .written _ hnone
  | _ =>
    rw [(Operation.tables_of_run h).2.1 rfl]
    exact .same

theorem ReceiptsEffect.stays {receipts : List ForceReceipt} (h : ReceiptsEffect db receipts)
    (hf : f ∈ db.receipts) : ∃ g ∈ receipts, f.Stays g := by
  cases h with
  | steps receipts hsteps =>
    obtain ⟨g, hg, hstep⟩ := Table.exists_of_forall₂ hsteps hf
    exact ⟨g, hg, hstep.stays⟩
  | written g _ => exact ⟨f, List.mem_cons_of_mem _ hf, .refl⟩

theorem receiptKeys_of_steps {receipts receipts' : List ForceReceipt}
    (h : List.Forall₂ ReceiptStep receipts receipts') :
    receipts'.map (fun f => (f.creator, f.lockId)) =
      receipts.map fun f => (f.creator, f.lockId) := by
  induction h with
  | nil => rfl
  | cons hstep _ ih => simp only [List.map_cons, ih, hstep.stays.creator, hstep.stays.lockId]

theorem ReceiptsEffect.keys {receipts : List ForceReceipt} (h : ReceiptsEffect db receipts)
    (hkeys : (db.receipts.map fun f => (f.creator, f.lockId)).Nodup) :
    (receipts.map fun f => (f.creator, f.lockId)).Nodup := by
  cases h with
  | steps receipts hsteps =>
    rw [receiptKeys_of_steps hsteps]
    exact hkeys
  | written f hnone =>
    refine List.nodup_cons.2 ⟨fun hmem => hnone ?_, hkeys⟩
    obtain ⟨g, hg, he⟩ := List.mem_map.1 hmem
    exact List.any_eq_true.2 ⟨g, hg, by simpa using he⟩

theorem job_of_receipt {c : CreatorPubky} {l : LockId} {k : DeletionJob}
    (hover : ∀ j ∈ db.jobs, db.hasReceipt j.creator j.lockId → j.state.isTerminal)
    (h : Effect db op db') (hrec : db.hasReceipt c l) (hk : k ∈ db'.jobs) (hc : k.creator = c)
    (hl : k.lockId = l) : k ∈ db.jobs := by
  subst hc hl
  cases h with
  | jobInserted job seen t _ hnone _ =>
    rcases List.mem_cons.1 hk with rfl | hk
    · exact absurd hrec hnone
    · exact hk
  | jobsUpdated op p f snapshots hu _ =>
    obtain ⟨j, hj, ⟨hp, rfl⟩ | ⟨-, rfl⟩⟩ := Table.mem_updateWhere.1 hk
    · rw [hu.creator, hu.lockId] at hrec
      rcases hu.may j hj hp with hopen | hnone
      · exact absurd (hover j hj hrec) hopen
      · exact absurd hrec hnone
    · exact hj
  | forceCompleted l now job receipt _ _ _ _ => exact List.mem_of_mem_filter hk
  | _ => exact hk

theorem intent_of_receipt {c : CreatorPubky} {l : LockId} (h : Effect db op db')
    (hrec : db.hasReceipt c l) (hintent : db'.hasIntent c l) : db.hasIntent c l := by
  cases h with
  | intents op intents hnew =>
    obtain ⟨i, hi, hkey⟩ := List.any_eq_true.1 hintent
    rcases hnew i hi with hold | ⟨-, hcut⟩
    · exact List.any_eq_true.2 ⟨i, hold, hkey⟩
    · rw [Bool.and_eq_true, beq_iff_eq, beq_iff_eq] at hkey
      rw [hkey.1, hkey.2, deletionCutoff, Bool.or_eq_false_iff, hrec] at hcut
      cases hcut.2
  | _ => exact hintent

/-! ## Transactions -/

/-- The operation takes no advisory lock that the transactions below need. -/
def DrainOperation.unlocked : DrainOperation → Bool
  | service o => o.unlocked
  | insertJob _ _ _ _ _ _ | insertAccessCredential _ _ _ => false
  | _ => true

/-- The transactions of the service with those on its credentials; a `single` one
    reads only rows it locks. -/
inductive AccessTransaction where
  | service (t : Transaction)
  | insertJob (job : DeletionJob) (rows : List TaskSnapshotRow) (admissionCutoff : Timestamp)
      (active : TaskId → Bool) (credentialId : LookupKey → Uuid)
  | single (op : DrainOperation)
  | insertAccessCredential (lockId : LockId) (key : LookupKey) (record : AccessCredentialRecord)

namespace AccessTransaction

variable (E : Externals) (deriveKey : AccessCredential → LookupKey)

/-- The transaction of the service. -/
def transaction? : AccessTransaction → Option Transaction
  | service t => some t
  | insertJob job rows t _ _ => some (.insertJob job rows t)
  | single _ | insertAccessCredential _ _ _ => none

def locks : AccessTransaction → List AdmissionLock
  | insertAccessCredential lockId _ record => [.lock record.creator lockId]
  | t => (t.transaction?.map (·.locks)).getD []

def checks : AccessTransaction → List (DrainStore → Bool)
  | insertAccessCredential lockId _ record =>
    [fun s => !s.db.deletionCutoff record.creator lockId]
  | t => ((t.transaction?.map (·.checks E)).getD []).map fun f s => f s.db

def write : AccessTransaction → DrainStore → Option DrainStore
  | service t, s => (t.write E s.db).bind fun db => s.after db t.operation
  | insertJob job rows t active credentialId, s =>
    ((Transaction.insertJob job rows t).write E s.db).bind fun db =>
      (s.enroll job (seenIn rows) active credentialId t).map fun s => { s with db }
  | single op, s => if op.unlocked then op.run E deriveKey s else none
  | insertAccessCredential _ key record, s =>
    if s.credentials.any (·.lookupKey == key) then none
    else some { s with credentials := ⟨key, record, none⟩ :: s.credentials }

def program (t : AccessTransaction) : Program DrainStore AdmissionLock where
  locks := t.locks
  checks := t.checks E
  write := t.write E deriveKey

variable {E} {deriveKey} {t : AccessTransaction} {n : ℕ} {s s' : DrainStore}

/-- What a transaction relies on after `n` checks. -/
def Relies (E : Externals) : AccessTransaction → ℕ → DrainStore → Prop
  | insertAccessCredential lockId _ record, n, s =>
    0 < n → s.db.deletionCutoff record.creator lockId = false
  | t, n, s => ∀ u, t.transaction? = some u → u.Relies E n s.db

theorem relies_zero : t.Relies E 0 s := by
  cases t with
  | insertAccessCredential => exact fun h => absurd h (lt_irrefl 0)
  | _ => exact fun u _ => Transaction.relies_zero

theorem Relies.check (hs : s.db.Sound) (hr : t.Relies E n s) {f : DrainStore → Bool}
    (hf : (t.checks E)[n]? = some f) (hdb : f s) : t.Relies E (n + 1) s := by
  have hlift : ∀ u, t.transaction? = some u →
      (t.checks E = (u.checks E).map fun f s => f s.db) → u.Relies E n s.db →
      u.Relies E (n + 1) s.db := by
    intro u _ hchecks hu
    rw [hchecks, List.getElem?_map] at hf
    obtain ⟨f', hf', rfl⟩ := Option.map_eq_some_iff.1 hf
    exact hu.check hs hf' hdb
  cases t with
  | service t =>
    rintro u ⟨⟩
    exact hlift t rfl rfl (hr t rfl)
  | insertJob job rows t active credentialId =>
    rintro u ⟨⟩
    exact hlift _ rfl rfl (hr _ rfl)
  | single op => exact fun u hu => (by cases hu)
  | insertAccessCredential lockId key record =>
    intro _
    obtain rfl := List.mem_singleton.1 (List.mem_of_getElem? hf)
    rwa [Bool.not_eq_true'] at hdb

/-- What a commit does to the tables of the service: nothing, or what one of its
    transactions does. -/
structure Commits (E : Externals) (t : AccessTransaction) (s s' : DrainStore) (u : Transaction) :
    Prop where
  relies : u.Relies E (u.checks E).length s.db
  write : u.write E s.db = some s'.db
  lock : ∀ c l, u.lock? = some (c, l) → .lock c l ∈ t.locks

theorem commits_of_single {op : DrainOperation} (hop : op.unlocked)
    (h : op.run E deriveKey s = some s') :
    s'.db = s.db ∨ ∃ u, Commits E (.single op) s s' u := by
  have hsingle : ∀ (o : Operation) db, o.unlocked → o.run E s.db = some db → s'.db = db →
      ∃ u, Commits E (.single op) s s' u := by
    rintro o db ho hrun rfl
    refine ⟨.single o, ⟨fun k hk => absurd hk (Nat.not_lt_zero k), trivial⟩, ?_, nofun⟩
    simp only [Transaction.write, ho, if_true]
    exact hrun
  cases effect_of_drainRun h with
  | reads op reads _ => exact .inl rfl
  | service op o db reads _ hdb _ _ hserves _ =>
    refine .inr (hsingle o db ?_ hdb rfl)
    cases hserves with
    | service _ _ => exact hop
    | _ => rfl
  | drained l id k now db hdb => exact .inr (hsingle _ db rfl hdb rfl)
  | forceCompleted l now db hdb => cases hop
  | inserted => cases hop
  | credentialInserted => cases hop
  | credentialDeleted key expected c _ _ => exact .inl rfl
  | windowsSet l issuance read now job windows _ _ => exact .inl rfl
  | issued op job bundleId candidate credentialId windows now s' _ _ _ _ _ _ hins =>
    obtain ⟨row, hrow, -⟩ := DrainStore.insertFinalCredential_eq_ok hins
    rw [hrow.after]
    exact .inl rfl

theorem length_checks {u : Transaction} (h : t.transaction? = some u) :
    (t.checks E).length = (u.checks E).length := by
  cases t <;> cases h <;> exact List.length_map _

theorem commits_of_write (hr : t.Relies E (t.checks E).length s)
    (hw : t.write E deriveKey s = some s') : s'.db = s.db ∨ ∃ u, Commits E t s s' u := by
  cases t with
  | service t =>
    obtain ⟨db, hdb, hafter⟩ := Option.bind_eq_some_iff.1 hw
    have hr := hr t rfl
    rw [length_checks rfl] at hr
    refine .inr ⟨t, hr, ?_, fun c l hl => Transaction.lock_mem_locks (E := E) hl⟩
    rw [hdb, DrainStore.db_of_after hafter]
  | insertJob job rows t active credentialId =>
    obtain ⟨db, hdb, h⟩ := Option.bind_eq_some_iff.1 hw
    obtain ⟨s₁, -, rfl⟩ := Option.map_eq_some_iff.1 h
    have hr := hr _ rfl
    rw [length_checks rfl] at hr
    exact .inr ⟨.insertJob job rows t, hr, hdb,
      fun c l hl => Transaction.lock_mem_locks (E := E) hl⟩
  | single op =>
    simp only [write] at hw
    split at hw
    · rename_i hop
      exact commits_of_single hop hw
    · cases hw
  | insertAccessCredential lockId key record =>
    simp only [write] at hw
    split at hw
    · cases hw
    · cases hw
      exact .inl rfl

theorem Relies.kept (hr : t.Relies E n s) (hs' : s'.db.Sound)
    (hk : ∀ c l, .lock c l ∈ t.locks → LockKept c l s.db s'.db) : t.Relies E n s' := by
  cases t with
  | service t =>
    rintro u ⟨⟩
    exact (hr t rfl).kept hs' fun c l hl => hk c l (Transaction.lock_mem_locks (E := E) hl)
  | insertJob job rows t active credentialId =>
    rintro u ⟨⟩
    exact (hr _ rfl).kept hs' fun c l hl => hk c l (Transaction.lock_mem_locks (E := E) hl)
  | single op => exact fun u hu => (by cases hu)
  | insertAccessCredential lockId key record =>
    exact fun hn => (hk _ _ (List.mem_singleton.2 rfl)).cutoff (hr hn)

end AccessTransaction

/-! ## Interleavings -/

theorem receipts_of_commit {E : Externals} {db db' : Database} {u : Transaction} (hs : db.Sound)
    (hr : u.Relies E (u.checks E).length db) (hw : u.write E db = some db') :
    ReceiptsEffect db db'.receipts := by
  by_cases ha : ∃ a, u = .admission a
  · obtain ⟨a, rfl⟩ := ha
    obtain ⟨hv, hcut⟩ := Admission.spec_of_kept fun k hk f hf => hr.passed hk hf
    rcases Admission.write_spec hv hcut hw with ⟨r, -, -, attempts, rfl⟩ | ⟨attempts, rfl⟩ <;>
      exact .same
  · exact receipts_of_run (commit_run hs hr hw fun a h => ha ⟨a, h⟩)

variable {deriveKey : AccessCredential → LookupKey} {s s' : State DrainStore AccessTransaction}
  {e : Event AccessTransaction}

/-- What holds in every interleaving. -/
structure Standing (E : Externals) (deriveKey : AccessCredential → LookupKey)
    (s : State DrainStore AccessTransaction) : Prop where
  locks : Exclusive (AccessTransaction.program E deriveKey) s
  sound : s.db.db.Sound
  relies : Transactions.Knows (AccessTransaction.Relies E) s
  keys : (s.db.db.receipts.map fun f => (f.creator, f.lockId)).Nodup
  closed : ∀ j ∈ s.db.db.jobs, s.db.db.hasReceipt j.creator j.lockId → j.state.isTerminal

theorem standing_init : Standing E deriveKey ⟨.empty, []⟩ :=
  ⟨List.Pairwise.nil, sound_empty, List.forall_mem_nil _, List.nodup_nil,
    List.forall_mem_nil _⟩

theorem db_of_event (h : Standing E deriveKey s)
    (hstep : Transactions.exec (AccessTransaction.program E deriveKey) s e = some s') :
    s'.db.db = s.db.db ∨ ∃ t ∈ s.active, ∃ u, e = .commit t.id ∧
      AccessTransaction.Commits E t.label s.db s'.db u := by
  rcases Transactions.exec_cases hstep with ⟨id, label, -, -, -, rfl⟩ | ⟨t, ht, c, -, -, -, rfl⟩ |
    ⟨t, ht, rfl, hp, hw, -⟩ | ⟨id, -, rfl⟩
  · exact .inl rfl
  · exact .inl rfl
  · have hr := h.relies t ht
    rw [hp] at hr
    rcases AccessTransaction.commits_of_write hr hw with hsame | ⟨u, hu⟩
    · exact .inl hsame
    · exact .inr ⟨t, ht, u, rfl, hu⟩
  · exact .inl rfl

theorem AccessTransaction.Commits.effect {t : AccessTransaction} {d d' : DrainStore}
    {u : Transaction} (h : t.Commits E d d' u) (hs : d.db.Sound) :
    Effect d.db u.operation d'.db :=
  commit_effect hs h.relies h.write

section
variable (h : Standing E deriveKey s) (hstep : Transactions.exec (AccessTransaction.program E
  deriveKey) s e = some s')
include h hstep

/-- **One event** keeps what holds in every interleaving. -/
theorem standing_exec : Standing E deriveKey s' := by
  have hdb := db_of_event h hstep
  have hsound : s'.db.db.Sound := by
    rcases hdb with hsame | ⟨t, -, u, -, hu⟩
    · rw [hsame]
      exact h.sound
    · exact sound_of_effect h.sound (hu.effect h.sound)
  refine ⟨Transactions.exclusive_exec h.locks hstep, hsound, ?_, ?_, ?_⟩
  · refine Transactions.knows_exec h.relies hstep ?_ ?_ ?_
    · exact fun _ _ _ => AccessTransaction.relies_zero
    · exact fun _ _ _ hc hcdb hr => hr.check h.sound hc hcdb
    · intro t ht hp hw u hu hne hr
      refine hr.kept hsound fun c l hlock => ?_
      have hrt := h.relies t ht
      rw [hp] at hrt
      rcases AccessTransaction.commits_of_write hrt hw with hsame | ⟨v, hv⟩
      · rw [hsame]
        exact .refl
      · refine lockKept_of_effect (hv.effect h.sound) (hv.relies.apart h.sound hv.write ?_)
        intro hvl
        exact hne (h.locks.eq_of_lock hu ht hlock (hv.lock c l hvl))
  · rcases hdb with hsame | ⟨t, -, u, -, hu⟩
    · rw [hsame]
      exact h.keys
    · exact (receipts_of_commit h.sound hu.relies hu.write).keys h.keys
  · rcases hdb with hsame | ⟨t, -, u, -, hu⟩
    · rw [hsame]
      exact h.closed
    · exact jobsOver_of_effect h.sound h.closed (hu.effect h.sound)

theorem receipt_stays
    {f : ForceReceipt} (hf : f ∈ s.db.db.receipts) : ∃ g ∈ s'.db.db.receipts, f.Stays g := by
  rcases db_of_event h hstep with hsame | ⟨t, -, u, -, hu⟩
  · rw [hsame]
    exact ⟨f, hf, .refl⟩
  · exact (receipts_of_commit h.sound hu.relies hu.write).stays hf

end

theorem no_credential (h : Standing E deriveKey s) {c : CreatorPubky} {l : LockId}
    (hrec : s.db.db.hasReceipt c l) {t : Open AccessTransaction} (ht : t ∈ s.active)
    (hstep : Transactions.exec (AccessTransaction.program E deriveKey) s (.commit t.id) = some s')
    (key : LookupKey) (record : AccessCredentialRecord) (hc : record.creator = c) :
    t.label ≠ .insertAccessCredential l key record := by
  intro hlabel
  rcases Transactions.exec_cases hstep with ⟨id, label, he, -⟩ | ⟨t', -, -, he, -⟩ |
    ⟨t', ht', he, hp, -⟩ | ⟨id, he, -⟩
  · cases he
  · cases he
  · have hid : t.id = t'.id := Transactions.Event.commit.inj he
    obtain rfl : t = t' := by
      by_contra hne
      exact (h.locks.apart ht ht' hne).1 hid
    have hr := h.relies t ht
    rw [hp, hlabel] at hr
    have hcut := hr Nat.one_pos
    rw [hc, deletionCutoff, Bool.or_eq_false_iff, hrec] at hcut
    cases hcut.2
  · cases he

/-- **Force receipts are permanent and exclusive.**  In every state that an
    interleaving of the transactions reaches:
    * every receipt stays in all that follow, with the time of its force
      deletion, and with its completion and its manifest once they are set; a
      lock has one at most;
    * the job of a lock with a receipt has ended, so the end of a forced deletion
      finds no receipt;
    * while a lock has a receipt, no intent, job or ordinary credential of it is
      created and its job stays as it is. -/
theorem force_receipts (E : Externals) (deriveKey : AccessCredential → LookupKey)
    (events : List (Event AccessTransaction)) (s : State DrainStore AccessTransaction)
    (h : Runs.Run (Runs.ofExec (Transactions.exec (AccessTransaction.program E deriveKey)))
      ⟨.empty, []⟩ events s) :
    (∀ events' s', Runs.Run (Runs.ofExec
        (Transactions.exec (AccessTransaction.program E deriveKey))) s events' s' →
      ∀ f ∈ s.db.db.receipts, ∃ g ∈ s'.db.db.receipts, f.Stays g) ∧
    (s.db.db.receipts.map fun f => (f.creator, f.lockId)).Nodup ∧
    (∀ j ∈ s.db.db.jobs, s.db.db.hasReceipt j.creator j.lockId → j.state.isTerminal) ∧
    (∀ l now j, s.db.db.ownedJob? l now = some j → ¬ s.db.db.hasReceipt j.creator j.lockId) ∧
    ∀ c l, s.db.db.hasReceipt c l → ∀ e s',
      Transactions.exec (AccessTransaction.program E deriveKey) s e = some s' →
      (s'.db.db.hasIntent c l → s.db.db.hasIntent c l) ∧
      (∀ k ∈ s'.db.db.jobs, k.creator = c → k.lockId = l → k ∈ s.db.db.jobs) ∧
      ∀ t ∈ s.active, e = .commit t.id → ∀ key (record : AccessCredentialRecord),
        record.creator = c → t.label ≠ .insertAccessCredential l key record := by
  have hs : Standing E deriveKey s :=
    h.invariant (I := Standing E deriveKey) standing_init fun _ _ _ hs hstep =>
      standing_exec hs hstep
  refine ⟨fun events' s' hrun f hf => ?_, hs.keys, hs.closed, fun l now j hj hrec => ?_,
    fun c l hrec e s' hstep => ⟨fun hintent => ?_, fun k hk hc hl => ?_, ?_⟩⟩
  · apply hrun.invariant_under hs fun _ _ _ hs₁ hstep => standing_exec hs₁ hstep
    · exact ⟨f, hf, .refl⟩
    rintro s₁ e s₂ hs₁ ⟨g, hg, hstays⟩ hstep
    obtain ⟨g', hg', hstays'⟩ := receipt_stays hs₁ hstep hg
    exact ⟨g', hg', hstays.trans hstays'⟩
  · obtain ⟨hmem, -, hrunning⟩ := Database.ownedJob?_eq_some hj
    have hover := hs.closed j hmem hrec
    rw [hrunning] at hover
    cases hover
  · rcases db_of_event hs hstep with hsame | ⟨t, -, u, -, hu⟩
    · rwa [hsame] at hintent
    · exact intent_of_receipt (hu.effect hs.sound) hrec hintent
  · rcases db_of_event hs hstep with hsame | ⟨t, -, u, -, hu⟩
    · rwa [hsame] at hk
    · exact job_of_receipt hs.closed (hu.effect hs.sound) hrec hk hc hl
  · rintro t ht rfl key record hc
    exact no_credential hs hrec ht hstep key record hc

/-- A credential of a lock is inserted, and then the lock is deleted by force
    while a worker looks for a job. -/
def forcedAfterCredential : List (Event AccessTransaction) :=
  let lock := LockId.fromHash (.replicate 7)
  let record : AccessCredentialRecord := ⟨⟨"creator"⟩, ⟨"bundle"⟩, 100⟩
  [.begin 1 (.insertAccessCredential lock ⟨1⟩ record), .check 1, .commit 1,
    .begin 2 (.service (.prepareForceDeletion ⟨"creator"⟩ lock none 1 false)),
    .begin 3 (.single (.service (.claimNextJob ⟨⟨2⟩, "worker", ⟨3⟩⟩ 60 1))),
    .check 2, .check 2, .commit 2]

/-- Its receipt is completed later and keeps its time. -/
theorem forced_receipt_stays : let E := Externals.constant (.replicate 7)
    let exec := Transactions.exec (AccessTransaction.program E fun c => ⟨c.text.length⟩)
    let lock := LockId.fromHash (.replicate 7)
    let later : List (Event AccessTransaction) := [.begin 4 (.single (.service
      (.completeSynchronousForceDeletion ⟨"creator"⟩ lock 2))), .commit 4]
    ∃ s s' f g, Runs.execList exec ⟨.empty, []⟩ forcedAfterCredential = some s ∧
      Runs.execList exec s later = some s' ∧ f ∈ s.db.db.receipts ∧ g ∈ s'.db.db.receipts ∧
      f.completedAt = none ∧ f.Stays g ∧ ∀ e s'', exec s e = some s'' →
        s''.db.db.hasIntent ⟨"creator"⟩ lock → s.db.db.hasIntent ⟨"creator"⟩ lock := by
  intro E exec lock later
  have h : (Runs.execList exec ⟨.empty, []⟩ forcedAfterCredential).any fun s =>
      (Runs.execList exec s later).isSome && s.db.db.hasReceipt ⟨"creator"⟩ lock &&
        s.db.db.receipts.any (·.completedAt == none) := by
    decide +kernel
  obtain ⟨s, hs, h⟩ := (Option.any_eq_true _ _).1 h
  rw [Bool.and_eq_true, Bool.and_eq_true] at h
  obtain ⟨s', hs'⟩ := Option.isSome_iff_exists.1 h.1.1
  obtain ⟨f, hf, hopen⟩ := List.any_eq_true.1 h.2
  obtain ⟨hstays, -, -, -, hlock⟩ := force_receipts E (fun c => ⟨c.text.length⟩)
    forcedAfterCredential s (Runs.run_of_execList _ hs)
  obtain ⟨g, hg, hfg⟩ := hstays later s' (Runs.run_of_execList _ hs') f hf
  exact ⟨s, s', f, g, hs, hs', hf, hg, beq_iff_eq.1 hopen, hfg,
    fun e s'' hstep => (hlock _ _ h.1.2 e s'' hstep).1⟩

end PubkyLocks
