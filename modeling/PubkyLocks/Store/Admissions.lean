/-
  The transactions that admit verification tasks or start their folded
  authorisation: `insert_verification_task`, `insert_invoice_pending_task`
  (`verification_tasks.rs`), `insert_graph_task` (`graph_tasks.rs`),
  `admit_payment_task` (`payment_tasks.rs`), `start_or_rotate` and
  `accept_and_insert_graph_task` (`folded_auth.rs`).

  Each is a `Transactions.Program`: the advisory locks it takes, the reads it
  decides on, in their order, and its write.  A transaction that finds the task
  it was asked to insert returns it and writes nothing; like a refusal, it is a
  check that fails.  `Admission.write_spec` says what the write of a transaction
  inserts, `Admission.run_spec` the same of a transaction taken in one step.
-/
import PubkyLocks.FoldedAuth.Repository
import PubkyLocks.Lanes.Statements
import PubkyLocks.Lib.Transactions

namespace PubkyLocks

open Database

open Checks (refuse)
open Transactions (Program)

/-- The advisory locks of admissions: `lock_proof_admission` for a lock,
    `lock_proof_handle_admission` for a handle. -/
inductive AdmissionLock where
  | lock (creator : CreatorPubky) (lockId : LockId)
  | handle (creator : CreatorPubky) (bundleId : BundleId)
deriving DecidableEq

structure AdmitPaymentTask where
  taskId : TaskId
  submittedProofBundle : SubmittedProofBundleV2
  lockHash : LockHash
  payment : PaymentPolicyV2
  verificationWindowSeconds : ℕ

/-! ## Rows -/

/-- `INSERT INTO verification_tasks ... ON CONFLICT DO NOTHING`: the table
    refuses a row against its CHECKs, a second row of a task id or of a
    handle. -/
def Database.insertTask (db : Database) (r : TaskRow) : Option Database :=
  if r.checks && db.tasks.all (fun s => s.taskId != r.taskId &&
      !(s.creator == r.creator && s.bundleId == r.bundleId)) then
    some { db with tasks := r :: db.tasks }
  else none

/-- The row of a version-1 task, `VerificationTaskWriteRow`. -/
def V1.newRow (t : VerificationTaskRecord) : TaskRow :=
  { TaskRow.inserted t.taskId t.creator t.submittedProofBundle.bundleId (.v1 t.submittedProofBundle)
      t.submittedAt none with
    status := t.status
    startedAt := t.startedAt
    completedAt := t.completedAt
    failureMessage := t.failureMessage
    terminalReason := t.terminalReason
    entitlementToPublish := t.entitlementToPublish.map .v1 }

def INVOICE_ADMISSION_WINDOW : Duration := Duration.seconds 600

def Invoice.newRow (t : VerificationTaskRecord) (intent : InvoiceAdmissionIntentV1)
    (dbNow : Timestamp) : TaskRow :=
  { V1.newRow t with
    invoiceAdmissionPhase := .invoicePending
    invoiceAdmissionIntent := some intent
    admissionDeadlineAt := some (dbNow + INVOICE_ADMISSION_WINDOW)
    nextAttemptAt := some dbNow }

def Payment.newRow (taskId : TaskId) (s : PaymentTaskSnapshotV1) : TaskRow :=
  .inserted taskId s.creator s.bundleId (.v2 s.submittedProofBundle) s.acceptedAt
    (some (.payment s))

/-! ## Input checks -/

def validateInvoiceAdmissionInputs (t : VerificationTaskRecord) (i : InvoiceAdmissionIntentV1) :
    Except ApplicationError Unit :=
  refuse (i.version ≠ INVOICE_ADMISSION_INTENT_VERSION ∨ t.status ≠ .pending ∨
      t.creator ≠ i.creator ∨ t.submittedProofBundle.bundleId ≠ i.bundleId ∨
      t.submittedProofBundle.pubkyLockResource ≠ i.lockResource ∨
      t.submittedProofBundle.readerPublicKey ≠ some i.reader)
    (invalidState "invoice admission intent diverges from pending verification task")

/-- The check of `VerificationTaskWriteRow::try_from`. -/
def validateWriteRow (t : VerificationTaskRecord) : Except ApplicationError Unit :=
  refuse (t.creator ≠ t.submittedProofBundle.pubkyLockResource.creator)
    (storageError "verification task record creator diverges from submitted proof bundle")

def validateNewTask (t : GraphTaskRecord) : Except ApplicationError Unit := do
  refuse (t.status ≠ .pending || t.evaluatorRevision ≠ 0 || t.entitlementToPublish.isSome ||
      t.entitlementPublicationToken.isSome || t.completedAt.isSome)
    (invalidState "new graph task must be pristine and pending at evaluator revision zero")
  t.snapshot.validatePristineAdmission.mapError invalidGraphSnapshot

namespace Database

variable (db : Database)

/-- `graph_task_exists_by_handle`: a task of either evaluator. -/
def evaluatorTaskExists (c : CreatorPubky) (b : BundleId) : Bool :=
  (db.tasksOf c b).any fun r => r.evaluator.isSome

def v1TaskExists (c : CreatorPubky) (b : BundleId) : Bool := (db.tasksOf c b).any TaskRow.isV1

def graphTaskExists (c : CreatorPubky) (b : BundleId) : Bool := (db.tasksOf c b).any TaskRow.isGraph

def paymentTaskExists (c : CreatorPubky) (b : BundleId) : Bool :=
  (db.tasksOf c b).any TaskRow.isPayment

def taskExists (c : CreatorPubky) (b : BundleId) : Bool := !(db.tasksOf c b).isEmpty

end Database

/-! ## Transactions -/

/-- The six transactions, with their inputs and the database time they read.
    `acceptAndInsertGraphTask` is given the attempt its `SELECT ... FOR UPDATE`
    returned. -/
inductive Admission where
  | insertVerificationTask (task : VerificationTaskRecord)
  | insertInvoicePendingTask (task : VerificationTaskRecord) (intent : InvoiceAdmissionIntentV1)
      (dbNow : Timestamp)
  | insertGraphTask (task : GraphTaskRecord)
  | admitPaymentTask (request : AdmitPaymentTask) (dbNow : Timestamp)
  | startOrRotate (request : StartFoldedAuthAttempt) (dbNow : Timestamp)
  | acceptAndInsertGraphTask (attempt : FoldedAuthAttempt) (taskId : TaskId)
      (reader : CreatorPubky) (dbNow : Timestamp)

namespace Admission

def creator : Admission → CreatorPubky
  | insertVerificationTask t => t.creator
  | insertInvoicePendingTask t _ _ => t.creator
  | insertGraphTask t => t.snapshot.creator
  | admitPaymentTask q _ => q.submittedProofBundle.pubkyLockResource.creator
  | startOrRotate q _ => q.creator
  | acceptAndInsertGraphTask a _ _ _ => a.creator

def bundleId : Admission → BundleId
  | insertVerificationTask t => t.submittedProofBundle.bundleId
  | insertInvoicePendingTask t _ _ => t.submittedProofBundle.bundleId
  | insertGraphTask t => t.snapshot.bundleId
  | admitPaymentTask q _ => q.submittedProofBundle.bundleId
  | startOrRotate q _ => q.bundleId
  | acceptAndInsertGraphTask a _ _ _ => a.bundleId

def lockId : Admission → LockId
  | insertVerificationTask t => t.submittedProofBundle.pubkyLockResource.lockId
  | insertInvoicePendingTask t _ _ => t.submittedProofBundle.pubkyLockResource.lockId
  | insertGraphTask t => t.snapshot.pubkyLockResource.lockId
  | admitPaymentTask q _ => q.submittedProofBundle.pubkyLockResource.lockId
  | startOrRotate q _ => q.pubkyLockResource.lockId
  | acceptAndInsertGraphTask a _ _ _ => a.pubkyLockResource.lockId

def locksHandle : Admission → Bool
  | insertVerificationTask _ | startOrRotate _ _ | acceptAndInsertGraphTask _ _ _ _ => true
  | insertInvoicePendingTask _ _ _ | insertGraphTask _ | admitPaymentTask _ _ => false

/-- The advisory locks, in the order they are taken. -/
def locks (a : Admission) : List AdmissionLock :=
  .lock a.creator a.lockId :: if a.locksHandle then [.handle a.creator a.bundleId] else []

/-- The checks, in their order; an input check is made before the reads. -/
def checks (a : Admission) : List (Database → Bool) :=
  let c := a.creator
  let b := a.bundleId
  match a with
  | insertVerificationTask t =>
    [fun _ => (validateWriteRow t).isOk,
      fun db => !db.foldedAuthPending c b,
      fun db => !db.evaluatorTaskExists c b,
      fun db => !db.v1TaskExists c b,
      fun db => !db.deletionCutoff c a.lockId]
  | insertInvoicePendingTask t intent _ =>
    [fun _ => (validateInvoiceAdmissionInputs t intent).isOk,
      fun _ => (validateWriteRow t).isOk,
      fun db => !db.evaluatorTaskExists c b,
      fun db => !db.v1TaskExists c b,
      fun db => !db.deletionCutoff c a.lockId]
  | insertGraphTask t =>
    [fun _ => (validateNewTask t).isOk,
      fun db => !db.foldedAuthPending c b,
      fun db => !db.graphTaskExists c b,
      fun db => !db.deletionCutoff c a.lockId]
  | admitPaymentTask _ _ =>
    [fun db => !db.paymentTaskExists c b,
      fun db => !db.taskExists c b,
      fun db => !db.deletionCutoff c a.lockId]
  | startOrRotate q _ =>
    [fun _ => q.validate.isOk,
      fun db => !db.taskExists c b]
  | acceptAndInsertGraphTask attempt _ _ _ =>
    [fun db => db.attempts.contains attempt && attempt.status == .pending]

def accepted (dbNow purgeAfter : Timestamp) (taskId : TaskId) (a : FoldedAuthAttempt) :
    FoldedAuthAttempt :=
  { a.terminalized .accepted dbNow purgeAfter with taskId := some taskId }

/-- The write of `accept_and_insert_graph_task`: an attempt that has expired is
    closed, another one becomes a graph task. -/
def acceptWrite (attempt : FoldedAuthAttempt) (taskId : TaskId) (reader : CreatorPubky)
    (dbNow : Timestamp) (db : Database) : Option Database :=
  if attempt.expiresAt ≤ dbNow then
    (FoldedAuth.terminalizePending db.attempts attempt.stateHash attempt.generation .expired
      dbNow).map fun attempts => { db with attempts }
  else
    match attempt.acceptedGraphTask taskId reader dbNow, checkedPurgeAfter dbNow with
    | .ok task, some purgeAfter =>
      if db.deletionCutoff attempt.creator attempt.pubkyLockResource.lockId then none
      else (db.insertTask (Graph.newRow taskId task.snapshot)).map fun db =>
        { db with
          attempts := Table.updateWhere (·.pendingAs attempt.stateHash attempt.generation)
            (accepted dbNow purgeAfter taskId) db.attempts }
    | _, _ => none

def write : Admission → Database → Option Database
  | insertVerificationTask t, db => db.insertTask (V1.newRow t)
  | insertInvoicePendingTask t intent dbNow, db => db.insertTask (Invoice.newRow t intent dbNow)
  | insertGraphTask t, db => db.insertTask (Graph.newRow t.taskId t.snapshot)
  | admitPaymentTask q dbNow, db =>
    match PaymentTaskSnapshotV1.new q.submittedProofBundle q.lockHash q.payment dbNow
        q.verificationWindowSeconds with
    | .ok s => db.insertTask (Payment.newRow q.taskId s)
    | .error _ => none
  | startOrRotate q dbNow, db =>
    (FoldedAuth.startOrRotate db.attempts q dbNow).map fun attempts => { db with attempts }
  | acceptAndInsertGraphTask attempt taskId reader dbNow, db =>
    acceptWrite attempt taskId reader dbNow db

def dbNow? : Admission → Option Timestamp
  | insertVerificationTask _ | insertGraphTask _ => none
  | insertInvoicePendingTask _ _ t | admitPaymentTask _ t | startOrRotate _ t
  | acceptAndInsertGraphTask _ _ _ t => some t

def program (a : Admission) : Program Database AdmissionLock where
  locks := a.locks
  checks := a.checks
  write := a.write

end Admission

/-! ## Admitted rows -/

/-- The evaluator column of a row at its insert: none, or a valid pending
    snapshot that the other columns were taken from. -/
def TaskRow.Pristine (r : TaskRow) : Prop :=
  match r.evaluator with
  | none => True
  | some (.graph s) => r = Graph.newRow r.taskId s ∧ s.validate = .ok () ∧ s.root = .pending
  | some (.payment s) => r = Payment.newRow r.taskId s ∧ s.validate = .ok () ∧ s.root = .pending

/-- What an insert establishes of the row: the table accepts it, its creator is
    the creator of the lock it names, no deletion of that lock was known, and
    its evaluator is pristine. -/
structure Admitted (db : Database) (r : TaskRow) : Prop where
  checks : r.checks
  fresh : ∀ s ∈ db.tasks, s.taskId ≠ r.taskId ∧ ¬ (s.creator = r.creator ∧ s.bundleId = r.bundleId)
  creator : r.resource.creator = r.creator
  cutoff : db.deletionCutoff r.creator r.resource.lockId = false
  unfrozen : r.deletionJobId = none
  pristine : r.Pristine

theorem Database.insertTask_eq_some {db db' : Database} {r : TaskRow} :
    db.insertTask r = some db' ↔ r.checks ∧
      (∀ s ∈ db.tasks, s.taskId ≠ r.taskId ∧ ¬ (s.creator = r.creator ∧ s.bundleId = r.bundleId)) ∧
      db' = { db with tasks := r :: db.tasks } := by
  unfold insertTask
  split
  · rename_i h
    simp only [Bool.and_eq_true, List.all_eq_true, bne_iff_ne, Bool.not_eq_true',
      Bool.and_eq_false_iff, beq_eq_false_iff_ne] at h
    simp only [Option.some.injEq]
    constructor
    · intro he
      exact ⟨h.1, fun s hs => ⟨(h.2 s hs).1, by have := (h.2 s hs).2; tauto⟩, he.symm⟩
    · rintro ⟨-, -, rfl⟩
      rfl
  · rename_i h
    simp only [reduceCtorEq, false_iff]
    rintro ⟨hc, hf, -⟩
    refine h ?_
    simp only [Bool.and_eq_true, List.all_eq_true, bne_iff_ne, Bool.not_eq_true',
      Bool.and_eq_false_iff, beq_eq_false_iff_ne]
    exact ⟨hc, fun s hs => ⟨(hf s hs).1, by have := (hf s hs).2; tauto⟩⟩

namespace Admission

variable {db db' : Database} {a : Admission}

theorem creator_of_validateWriteRow {t : VerificationTaskRecord} (h : (validateWriteRow t).isOk) :
    t.submittedProofBundle.pubkyLockResource.creator = t.creator := by
  obtain ⟨_, h⟩ := Checks.isOk_iff.1 h
  rw [validateWriteRow, Checks.refuse_eq_ok, not_not] at h
  exact h.symm

theorem valid_of_validateNewTask {t : GraphTaskRecord} (h : (validateNewTask t).isOk) :
    t.snapshot.validate = .ok () ∧ t.snapshot.root = .pending := by
  obtain ⟨_, h⟩ := Checks.isOk_iff.1 h
  simp only [validateNewTask, Checks.seq_eq_ok, Checks.mapError_eq_ok,
    GraphTaskSnapshotV1.validatePristineAdmission, Checks.refuse_eq_ok] at h
  obtain ⟨-, hv, hp⟩ := h
  simp only [Bool.or_eq_true, decide_eq_true_eq, not_or, not_not] at hp
  exact ⟨hv, hp.1⟩

theorem admitted_graph {taskId : TaskId} {s : GraphTaskSnapshotV1} (hv : s.validate = .ok ())
    (hroot : s.root = .pending)
    (hcut : db.deletionCutoff s.creator s.pubkyLockResource.lockId = false)
    (hw : db.insertTask (Graph.newRow taskId s) = some db') :
    Admitted db (Graph.newRow taskId s) ∧
      db' = { db with tasks := Graph.newRow taskId s :: db.tasks } := by
  obtain ⟨hc, hf, rfl⟩ := insertTask_eq_some.1 hw
  exact ⟨⟨hc, hf, (GraphTaskSnapshotV1.valid_of_validate hv).creator, hcut, rfl, rfl, hv, hroot⟩,
    rfl⟩

structure Targets (a : Admission) (r : TaskRow) : Prop where
  creator : r.creator = a.creator
  lockId : r.resource.lockId = a.lockId

def inputValid : Admission → Bool
  | insertVerificationTask t | insertInvoicePendingTask t _ _ => (validateWriteRow t).isOk
  | insertGraphTask t => (validateNewTask t).isOk
  | admitPaymentTask _ _ | startOrRotate _ _ | acceptAndInsertGraphTask _ _ _ _ => true

/-- The last check of the admission is the cutoff; an acceptance makes it in its
    write. -/
def checksCutoff : Admission → Bool
  | insertVerificationTask _ | insertInvoicePendingTask _ _ _ | insertGraphTask _
  | admitPaymentTask _ _ => true
  | startOrRotate _ _ | acceptAndInsertGraphTask _ _ _ _ => false

/-- **Admissions insert admitted rows.**  A write inserts one admitted row or
    none, if the input is valid and the cutoff is not passed, and besides it
    only writes attempts. -/
theorem write_spec (hv : a.inputValid)
    (hcut : a.checksCutoff → db.deletionCutoff a.creator a.lockId = false)
    (hw : a.write db = some db') :
    (∃ r, Admitted db r ∧ a.Targets r ∧
      ∃ attempts, db' = { db with tasks := r :: db.tasks, attempts }) ∨
      ∃ attempts, db' = { db with attempts } := by
  cases a with
  | insertVerificationTask t =>
    obtain ⟨hchk, hf, rfl⟩ := insertTask_eq_some.1 hw
    exact .inl ⟨_, ⟨hchk, hf, creator_of_validateWriteRow hv, hcut rfl, rfl, trivial⟩,
      ⟨rfl, rfl⟩, db.attempts, rfl⟩
  | insertInvoicePendingTask t intent dbNow =>
    obtain ⟨hchk, hf, rfl⟩ := insertTask_eq_some.1 hw
    exact .inl ⟨_, ⟨hchk, hf, creator_of_validateWriteRow hv, hcut rfl, rfl, trivial⟩,
      ⟨rfl, rfl⟩, db.attempts, rfl⟩
  | insertGraphTask t =>
    obtain ⟨hv, hroot⟩ := valid_of_validateNewTask hv
    obtain ⟨ha, rfl⟩ := admitted_graph hv hroot (hcut rfl) hw
    exact .inl ⟨_, ha, ⟨rfl, rfl⟩, db.attempts, rfl⟩
  | admitPaymentTask q dbNow =>
    simp only [write] at hw
    split at hw
    · rename_i s hs
      obtain ⟨hv, hsub, -, hroot, -⟩ := PaymentTaskSnapshotV1.new_spec hs
      have hvalid := PaymentTaskSnapshotV1.valid_of_validate hv
      obtain ⟨hchk, hf, rfl⟩ := insertTask_eq_some.1 hw
      have hcreator : s.submittedProofBundle.pubkyLockResource.creator = s.creator := by
        rw [hvalid.resource, hvalid.creator]
      refine .inl ⟨_, ⟨hchk, hf, hcreator, ?_, rfl, rfl, hv, hroot⟩, ⟨?_, ?_⟩,
        db.attempts, rfl⟩
      · show db.deletionCutoff s.creator s.submittedProofBundle.pubkyLockResource.lockId = false
        rw [← hcreator, hsub]
        exact hcut rfl
      · show s.creator = q.submittedProofBundle.pubkyLockResource.creator
        rw [← hcreator, hsub]
      · show s.submittedProofBundle.pubkyLockResource.lockId = _
        rw [hsub]
        rfl
    · cases hw
  | startOrRotate q dbNow =>
    obtain ⟨attempts, -, rfl⟩ := Option.map_eq_some_iff.1 hw
    exact .inr ⟨attempts, rfl⟩
  | acceptAndInsertGraphTask attempt taskId reader dbNow =>
    simp only [write, acceptWrite] at hw
    split at hw
    · obtain ⟨attempts, -, rfl⟩ := Option.map_eq_some_iff.1 hw
      exact .inr ⟨attempts, rfl⟩
    · split at hw
      · rename_i task purgeAfter htask hpurge
        split at hw
        · cases hw
        · rename_i hcut
          obtain ⟨s, hs, rfl⟩ := Checks.map_eq_ok.1 htask
          obtain ⟨hv, hcr, -, hres, -, hroot, -⟩ := GraphTaskSnapshotV1.new_spec hs
          obtain ⟨db₁, hins, rfl⟩ := Option.map_eq_some_iff.1 hw
          have htargets : Targets (.acceptAndInsertGraphTask attempt taskId reader dbNow)
              (Graph.newRow taskId s) := ⟨hcr, congrArg PubkyLockResource.lockId hres⟩
          rw [← hcr, ← hres, Bool.not_eq_true] at hcut
          obtain ⟨ha, rfl⟩ := admitted_graph hv hroot hcut hins
          exact .inl ⟨_, ha, htargets, _, rfl⟩
      · cases hw

theorem spec_of_checks (hc : ∀ c ∈ a.checks, c db) :
    a.inputValid ∧ (a.checksCutoff → db.deletionCutoff a.creator a.lockId = false) := by
  cases a with
  | insertVerificationTask t =>
    simp only [checks, List.forall_mem_cons, Bool.not_eq_true'] at hc
    obtain ⟨hv, -, -, -, hcut, -⟩ := hc
    exact ⟨hv, fun _ => hcut⟩
  | insertInvoicePendingTask t intent dbNow =>
    simp only [checks, List.forall_mem_cons, Bool.not_eq_true'] at hc
    obtain ⟨-, hv, -, -, hcut, -⟩ := hc
    exact ⟨hv, fun _ => hcut⟩
  | insertGraphTask t =>
    simp only [checks, List.forall_mem_cons, Bool.not_eq_true'] at hc
    obtain ⟨hv, -, -, hcut, -⟩ := hc
    exact ⟨hv, fun _ => hcut⟩
  | admitPaymentTask q dbNow =>
    simp only [checks, List.forall_mem_cons, Bool.not_eq_true'] at hc
    obtain ⟨-, -, hcut, -⟩ := hc
    exact ⟨rfl, fun _ => hcut⟩
  | startOrRotate q dbNow => exact ⟨rfl, by rintro ⟨⟩⟩
  | acceptAndInsertGraphTask attempt taskId reader dbNow => exact ⟨rfl, by rintro ⟨⟩⟩

theorem run_spec (h : a.program.run db = some db') : (∃ r, Admitted db r ∧ a.Targets r ∧
      ∃ attempts, db' = { db with tasks := r :: db.tasks, attempts }) ∨
      ∃ attempts, db' = { db with attempts } := by
  obtain ⟨hc, hw⟩ := Transactions.Program.run_eq_some.1 h
  obtain ⟨hv, hcut⟩ := spec_of_checks hc
  exact write_spec hv hcut hw

def NewRow : Admission → TaskRow → Prop
  | insertVerificationTask t, r => r = V1.newRow t
  | insertInvoicePendingTask t intent dbNow, r => r = Invoice.newRow t intent dbNow
  | insertGraphTask t, r => (validateNewTask t).isOk ∧ r = Graph.newRow t.taskId t.snapshot
  | admitPaymentTask q dbNow, r =>
    ∃ s, PaymentTaskSnapshotV1.new q.submittedProofBundle q.lockHash q.payment dbNow
        q.verificationWindowSeconds = .ok s ∧ r = Payment.newRow q.taskId s
  | startOrRotate _ _, _ => False
  | acceptAndInsertGraphTask attempt taskId reader dbNow, r =>
    ∃ t, attempt.acceptedGraphTask taskId reader dbNow = .ok t ∧ r = Graph.newRow taskId t.snapshot

theorem newRow_of_write (hv : a.inputValid) (hw : a.write db = some db') :
    db'.tasks = db.tasks ∨ ∃ r, a.NewRow r ∧ db'.tasks = r :: db.tasks := by
  cases a with
  | insertVerificationTask t =>
    obtain ⟨-, -, rfl⟩ := insertTask_eq_some.1 hw
    exact .inr ⟨_, rfl, rfl⟩
  | insertInvoicePendingTask t intent dbNow =>
    obtain ⟨-, -, rfl⟩ := insertTask_eq_some.1 hw
    exact .inr ⟨_, rfl, rfl⟩
  | insertGraphTask t =>
    obtain ⟨-, -, rfl⟩ := insertTask_eq_some.1 hw
    exact .inr ⟨_, ⟨hv, rfl⟩, rfl⟩
  | admitPaymentTask q dbNow =>
    simp only [write] at hw
    split at hw
    · rename_i s hs
      obtain ⟨-, -, rfl⟩ := insertTask_eq_some.1 hw
      exact .inr ⟨_, ⟨s, hs, rfl⟩, rfl⟩
    · cases hw
  | startOrRotate q dbNow =>
    obtain ⟨attempts, -, rfl⟩ := Option.map_eq_some_iff.1 hw
    exact .inl rfl
  | acceptAndInsertGraphTask attempt taskId reader dbNow =>
    simp only [write, acceptWrite] at hw
    split at hw
    · obtain ⟨attempts, -, rfl⟩ := Option.map_eq_some_iff.1 hw
      exact .inl rfl
    · split at hw
      · rename_i task purgeAfter htask hpurge
        split at hw
        · cases hw
        · obtain ⟨db₁, hins, rfl⟩ := Option.map_eq_some_iff.1 hw
          obtain ⟨-, -, rfl⟩ := insertTask_eq_some.1 hins
          exact .inr ⟨_, ⟨task, htask, rfl⟩, rfl⟩
      · cases hw

theorem newRow_of_run (h : a.program.run db = some db') :
    db'.tasks = db.tasks ∨ ∃ r, a.NewRow r ∧ db'.tasks = r :: db.tasks := by
  obtain ⟨hc, hw⟩ := Transactions.Program.run_eq_some.1 h
  exact newRow_of_write (spec_of_checks hc).1 hw

end Admission

end PubkyLocks
