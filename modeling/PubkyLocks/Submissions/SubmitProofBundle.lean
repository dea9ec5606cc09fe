/-
  Submissions of proof bundles (`submit_proof_bundle.rs`) over the Postgres
  repository (`verification_tasks.rs`).

  A submission looks its handle up, inserts a task in a transaction of its own,
  and reads the task of the handle back if another submission was first.  The
  lookup, the statements of the transaction and the reads after it are steps of
  a call; between two of them any other call and any other transaction of the
  service may take steps.

  A call that fails with a storage error takes no further step; its transaction is
  rolled back by an event of the store.
-/
import PubkyLocks.Lib.Calls
import PubkyLocks.Store.Cutoff

namespace PubkyLocks

open Transactions (Open)

/-- The committed tables and the open transactions. -/
abbrev TaskStore := Transactions.State Database Transaction

/-! ## Tasks and their admissions -/

inductive SubmitError where
  | application (error : ApplicationError)
  | invalidPaykitPaymentSubmission
deriving DecidableEq

/-- `execute`, or `execute_invoice_pending` with its `payment_in`. -/
inductive SubmitMode where
  | verification
  | invoicePending (paymentIn : ℕ)
deriving DecidableEq

/-- The task of a new submission. -/
def pendingTask (bundle : SubmittedProofBundle) (taskId : TaskId) (submittedAt : Timestamp) :
    VerificationTaskRecord where
  taskId := taskId
  creator := bundle.pubkyLockResource.creator
  submittedProofBundle := bundle
  status := .pending
  submittedAt := submittedAt
  startedAt := none
  completedAt := none
  failureMessage := none
  terminalReason := none
  entitlementToPublish := none

/-- The task as its row gives it back: the bundle is a JSONB column. -/
def VerificationTaskRecord.stored (E : Externals) (task : VerificationTaskRecord) :
    VerificationTaskRecord :=
  { task with submittedProofBundle := task.submittedProofBundle.readBack E }

def submittedIntent (bundle : SubmittedProofBundle) (reader : CreatorPubky) (paymentIn : ℕ) :
    InvoiceAdmissionIntentV1 where
  version := INVOICE_ADMISSION_INTENT_VERSION
  creator := bundle.pubkyLockResource.creator
  bundleId := bundle.bundleId
  lockResource := bundle.pubkyLockResource
  reader := reader
  paymentIn := paymentIn

/-- `InvoiceAdmissionRecord`, as far as its columns are stored. -/
structure InvoiceAdmissionRecord where
  task : VerificationTaskRecord
  phase : InvoiceAdmissionPhase
  intent : InvoiceAdmissionIntentV1
  admissionDeadlineAt : Timestamp
  nextAttemptAt : Option Timestamp
  invoiceCreatedAt : Option Timestamp
  paymentDeadline : Option Timestamp

/-- `InvoiceAdmissionMetadataRow`, with the intent that the query requires. -/
structure InvoiceAdmissionMetadata where
  intent : InvoiceAdmissionIntentV1
  phase : InvoiceAdmissionPhase
  admissionDeadlineAt : Option Timestamp
  nextAttemptAt : Option Timestamp
  invoiceCreatedAt : Option Timestamp
  paymentDeadline : Option Timestamp
deriving DecidableEq

namespace Database

variable (db : Database)

def getVerificationTask (id : TaskId) : Except ApplicationError (Option VerificationTaskRecord) :=
  match db.tasks.find? fun r => r.taskId == id && r.isV1 with
  | none => .ok none
  | some r => r.toRecord.map some

def invoiceAdmissionMetadata (id : TaskId) : Option InvoiceAdmissionMetadata :=
  (db.task? id).bind fun r => r.invoiceAdmissionIntent.map fun intent =>
    ⟨intent, r.invoiceAdmissionPhase, r.admissionDeadlineAt, r.nextAttemptAt, r.invoiceCreatedAt,
      r.paymentDeadline⟩

end Database

/-- The record of `get_invoice_admission`, of its two queries. -/
def InvoiceAdmissionMetadata.record (m : InvoiceAdmissionMetadata) :
    Option VerificationTaskRecord → Except ApplicationError InvoiceAdmissionRecord
  | none => .error (.missingRecord "verification_task")
  | some task =>
    match m.admissionDeadlineAt with
    | none => .error (storageError "invoice admission intent is missing its deadline")
    | some deadline => .ok ⟨task, m.phase, m.intent, deadline, m.nextAttemptAt, m.invoiceCreatedAt,
        m.paymentDeadline⟩

/-! ## Calls -/

/-- Where a submission stands. -/
inductive SubmitCall where
  /-- Before `find_existing`. -/
  | submit (mode : SubmitMode) (bundle : SubmittedProofBundle)
  /-- The handle was free; the transaction of the insert is to begin. -/
  | preparing (mode : SubmitMode) (bundle : SubmittedProofBundle)
  /-- In the transaction with the id. -/
  | admitting (task : VerificationTaskRecord) (intent : Option InvoiceAdmissionIntentV1) (id : ℕ)
  /-- The transaction has found a task; its intent is to be read. -/
  | comparing (bundle : SubmittedProofBundle) (intent : InvoiceAdmissionIntentV1) (id : ℕ)
      (existing : VerificationTaskRecord)
  /-- `execute` was told of a duplicate. -/
  | rereading (bundle : SubmittedProofBundle)
  /-- After the insert of an invoice task, which inserted a row or none. -/
  | readingBack (bundle : SubmittedProofBundle) (intent : InvoiceAdmissionIntentV1)
      (inserted : Bool)
  /-- The first query of `get_invoice_admission`; `same` if the task is known to be
      that of the submission. -/
  | readingAdmission (bundle : SubmittedProofBundle) (intent : InvoiceAdmissionIntentV1)
      (same : Bool) (existing : VerificationTaskRecord)
  /-- The second one. -/
  | readingTask (bundle : SubmittedProofBundle) (intent : InvoiceAdmissionIntentV1)
      (same : Bool) (existing : VerificationTaskRecord) (metadata : InvoiceAdmissionMetadata)
  /-- The answer is the lifecycle view of the task. -/
  | returned (bundle : SubmittedProofBundle) (result : Except SubmitError VerificationTaskRecord)

/-- What a step reads besides the store: the generated ids and the clocks. -/
structure SubmitInput where
  transaction : ℕ
  taskId : TaskId
  now : Timestamp
  dbNow : Timestamp

def Transaction.submission? :
    Transaction → Option (VerificationTaskRecord × Option InvoiceAdmissionIntentV1)
  | admission (.insertVerificationTask task) => some (task, none)
  | admission (.insertInvoicePendingTask task intent _) => some (task, some intent)
  | _ => none

namespace SubmitCall

def failed (bundle : SubmittedProofBundle) (error : ApplicationError) : SubmitCall :=
  .returned bundle (.error (.application error))

/-- The transaction of a call, while it is open. -/
def open? (s : TaskStore) (task : VerificationTaskRecord)
    (intent : Option InvoiceAdmissionIntentV1) (id : ℕ) : Option (Open Transaction) :=
  (s.active.find? (·.id == id)).filter fun t => t.label.submission? == some (task, intent)

/-- The transaction has ended and has written nothing. -/
def ended (s : TaskStore) (id : ℕ) : TaskStore := { s with active := s.without id }

/-- The input checks of the insert, before its transaction. -/
def validate (task : VerificationTaskRecord) :
    Option InvoiceAdmissionIntentV1 → Except ApplicationError Unit
  | none => validateWriteRow task
  | some intent => do
    validateInvoiceAdmissionInputs task intent
    validateWriteRow task

def insert (task : VerificationTaskRecord) (dbNow : Timestamp) :
    Option InvoiceAdmissionIntentV1 → Transaction
  | none => .admission (.insertVerificationTask task)
  | some intent => .admission (.insertInvoicePendingTask task intent dbNow)

/-- What `insert_verification_task` makes of its check `k` when that fails. -/
def refusedVerification (s : TaskStore) (task : VerificationTaskRecord) (id k : ℕ) :
    Option (SubmitCall × TaskStore) :=
  let bundle := task.submittedProofBundle
  match k with
  | 1 | 2 => some (failed bundle .verificationTaskConflict, ended s id)
  | 3 =>
    match s.db.findExisting bundle with
    | .ok _ => some (.rereading bundle, ended s id)
    | .error e => some (failed bundle e, ended s id)
  | 4 => some (failed bundle .contentLockDeletionInProgress, ended s id)
  | _ => none

/-- What `insert_invoice_pending_task` makes of its check `k` when that fails. -/
def refusedInvoice (s : TaskStore) (task : VerificationTaskRecord)
    (intent : InvoiceAdmissionIntentV1) (id k : ℕ) : Option (SubmitCall × TaskStore) :=
  let bundle := task.submittedProofBundle
  match k with
  | 2 => some (failed bundle .verificationTaskConflict, ended s id)
  | 3 =>
    match s.db.getVerificationTaskByHandle task.creator bundle.bundleId with
    | .ok none => none
    | .ok (some existing) => some (.comparing bundle intent id existing, s)
    | .error e => some (failed bundle e, ended s id)
  | 4 => some (failed bundle .contentLockDeletionInProgress, ended s id)
  | _ => none

def afterInsert (task : VerificationTaskRecord) : Option InvoiceAdmissionIntentV1 → SubmitCall
  | none => .returned task.submittedProofBundle (.ok task)
  | some intent => .readingBack task.submittedProofBundle intent true

/-- The call after the insert has met a row with its task id or its handle. -/
def afterConflict (task : VerificationTaskRecord) : Option InvoiceAdmissionIntentV1 → SubmitCall
  | none => .rereading task.submittedProofBundle
  | some intent => .readingBack task.submittedProofBundle intent false

variable (E : Externals)

/-- The next statement of the transaction: a check, or the insert with its
    commit. -/
def onTransaction (s : TaskStore) (task : VerificationTaskRecord)
    (intent : Option InvoiceAdmissionIntentV1) (id : ℕ) : Option (SubmitCall × TaskStore) :=
  match open? s (task.stored E) intent id with
  | none => none
  | some t =>
    if t.passed < (t.label.checks E).length then
      match Transactions.exec (Transaction.program E) s (.check id) with
      | some s' => some (.admitting task intent id, s')
      | none =>
        match intent with
        | none => refusedVerification s task id t.passed
        | some i => refusedInvoice s task i id t.passed
    else
      match Transactions.exec (Transaction.program E) s (.commit id) with
      | some s' => some (afterInsert task intent, s')
      | none => some (afterConflict task intent, ended s id)

/-- The intent of the task of a submission, if its mode has one. -/
def intentOf (bundle : SubmittedProofBundle) :
    SubmitMode → Except SubmitError (Option InvoiceAdmissionIntentV1)
  | .verification => .ok none
  | .invoicePending paymentIn =>
    match bundle.readerPublicKey with
    | none => .error .invalidPaykitPaymentSubmission
    | some reader => .ok (some (submittedIntent bundle reader paymentIn))

/-- The transaction of the insert begins once its advisory locks are free. -/
def onPreparing (s : TaskStore) (mode : SubmitMode) (bundle : SubmittedProofBundle)
    (i : SubmitInput) : Option (SubmitCall × TaskStore) :=
  match intentOf bundle mode with
  | .error e => some (.returned bundle (.error e), s)
  | .ok intent =>
    let task := pendingTask bundle i.taskId i.now
    match validate task intent with
    | .error e => some (failed bundle e, s)
    | .ok () =>
      (Transactions.exec (Transaction.program E) s
        (.begin i.transaction (insert (task.stored E) i.dbNow intent))).map fun s' =>
          (.admitting task intent i.transaction, s')

/-- The comparison of `insert_invoice_pending_task` with a task it has found. -/
def onComparing (s : TaskStore) (bundle : SubmittedProofBundle) (intent : InvoiceAdmissionIntentV1)
    (id : ℕ) (existing : VerificationTaskRecord) : SubmitCall × TaskStore :=
  let existingIntent := (s.db.task? existing.taskId).bind (·.invoiceAdmissionIntent)
  if existing.submittedProofBundle ≠ bundle ∨ existingIntent ≠ some intent then
    (failed bundle .verificationTaskConflict, ended s id)
  else (.readingAdmission bundle intent true existing, ended s id)

def answer (bundle : SubmittedProofBundle) (intent : InvoiceAdmissionIntentV1) (same : Bool)
    (existing : VerificationTaskRecord) (admission : InvoiceAdmissionRecord) : SubmitCall :=
  if !same ∧ (existing.submittedProofBundle ≠ bundle ∨ admission.intent ≠ intent) then
    failed bundle .verificationTaskConflict
  else .returned bundle (.ok admission.task)

def onFound (bundle : SubmittedProofBundle) (next : VerificationTaskRecord → SubmitCall)
    (missing : SubmitCall) :
    Except ApplicationError (Option VerificationTaskRecord) → SubmitCall
  | .error e => failed bundle e
  | .ok none => missing
  | .ok (some task) => next task

/-- The next statement of a call; it may wait for the locks of its
    transaction. -/
def step (call : SubmitCall) (i : SubmitInput) (s : TaskStore) : Option (SubmitCall × TaskStore) :=
  let byHandle (bundle : SubmittedProofBundle) :=
    s.db.getVerificationTaskByHandle bundle.pubkyLockResource.creator bundle.bundleId
  match call with
  | submit mode bundle =>
    some (onFound bundle (fun task => .returned bundle (.ok task)) (.preparing mode bundle)
      (s.db.findExisting bundle), s)
  | preparing mode bundle => onPreparing E s mode bundle i
  | admitting task intent id => onTransaction E s task intent id
  | comparing bundle intent id existing => some (onComparing s bundle intent id existing)
  | rereading bundle =>
    some (onFound bundle (fun task => .returned bundle (.ok task))
      (failed bundle (.duplicateRecord "verification_task")) (s.db.findExisting bundle), s)
  | readingBack bundle intent inserted =>
    some (onFound bundle (fun task => .readingAdmission bundle intent inserted task)
      (failed bundle (.duplicateRecord "verification_task")) (byHandle bundle), s)
  | readingAdmission bundle intent same existing =>
    match s.db.invoiceAdmissionMetadata existing.taskId with
    | none => some (failed bundle .verificationTaskConflict, s)
    | some metadata => some (.readingTask bundle intent same existing metadata, s)
  | readingTask bundle intent same existing metadata =>
    match s.db.getVerificationTask existing.taskId >>= metadata.record with
    | .error e => some (failed bundle e, s)
    | .ok admission => some (answer bundle intent same existing admission, s)
  | returned _ _ => none

/-- A call begins with its submission. -/
def starts : SubmitCall → Bool
  | submit _ _ => true
  | _ => false

end SubmitCall

variable {db : Database} {bundle : SubmittedProofBundle} {id : TaskId} {now : Timestamp}

/-- The calls of both modes over the interleaved transactions of the service. -/
def submitService (E : Externals) :
    Calls.Service TaskStore SubmitCall SubmitInput (Transactions.Event Transaction) where
  starts := SubmitCall.starts
  step := SubmitCall.step E
  other := fun e s => Transactions.exec (Transaction.program E) s e

/-- No tables, no transactions and no calls. -/
def submitInit : Calls.State TaskStore SubmitCall := ⟨⟨.empty, []⟩, []⟩

end PubkyLocks
