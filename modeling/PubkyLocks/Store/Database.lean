/-
  The tables of the service that the modelled transactions read and write:
  verification tasks, deletion jobs with the task snapshot each of them
  freezes, force-deletion receipts, publication intents and folded-auth
  attempts (`infrastructure/postgres`, migrations 0001 to 0031).

  A `Database` is a list of rows per table.  The keys the migrations declare
  (`PRIMARY KEY`, `UNIQUE`) are checked by the inserts.  The foreign keys act
  in `Database.deleteJob`: the snapshot rows of a job are deleted with it and
  the tasks it froze are released.
-/
import PubkyLocks.Store.Row
import PubkyLocks.Lib.Table

namespace PubkyLocks

/-! ## Deletion jobs -/

inductive ContentLockDeletionState where
  | queued
  | running
  | completed
  | failed
deriving DecidableEq, Repr

/-- A completed or failed job is not worked on. -/
def ContentLockDeletionState.isTerminal : ContentLockDeletionState → Bool
  | completed | failed => true
  | queued | running => false

inductive ContentLockDeletionPhase where
  | withdraw
  | startPaymentDrain
  | drainPayments
  | drainExistingCredentials
  | issueFinalCredentials
  | drainFinalReads
  | deleteContent
  | deleteTombstone
  | purgeOperationalState
deriving DecidableEq, Repr

/-- `ContentLockDeletionPhase::permits`: only the next phase follows. -/
def ContentLockDeletionPhase.permits :
    ContentLockDeletionPhase → ContentLockDeletionPhase → Bool
  | withdraw, startPaymentDrain
  | startPaymentDrain, drainPayments
  | drainPayments, drainExistingCredentials
  | drainExistingCredentials, issueFinalCredentials
  | issueFinalCredentials, drainFinalReads
  | drainFinalReads, deleteContent
  | deleteContent, deleteTombstone
  | deleteTombstone, purgeOperationalState => true
  | _, _ => false

inductive ContentLockDeletionFailureCode where
  | tombstoneMissing
  | tombstoneReplaced
  | resourceReplaced
  | retryExhausted
  | stateCorrupt
deriving DecidableEq, Repr

/-- A row of `content_lock_deletion_jobs`.  Its JSONB column is taken to give back the
    frozen lock as it was inserted: `lock.readBack E = lock`. -/
structure DeletionJob where
  jobId : Uuid
  creator : CreatorPubky
  lockId : LockId
  frozenContentLock : ContentLock
  deletionStartedAt : Timestamp
  state : ContentLockDeletionState
  phase : ContentLockDeletionPhase
  attemptCount : ℕ
  nextAttemptAt : Option Timestamp
  forceRequestedAt : Option Timestamp
  failureCode : Option ContentLockDeletionFailureCode
  claimedBy : Option String
  claimToken : Option Uuid
  claimExpiresAt : Option Timestamp
deriving DecidableEq

/-- `load_owned_claim`: the job is running, the worker holds its claim and the
    lease runs at `now`. -/
def DeletionJob.owned (j : DeletionJob) (worker : String) (token : Uuid) (now : Timestamp) : Bool :=
  j.state == .running && j.claimedBy == some worker && j.claimToken == some token &&
    j.claimExpiresAt.any (now < ·)

/-- `owns_live_drain_claim`: the owned job is in the phase and no force
    deletion is requested. -/
def DeletionJob.ownsLiveDrainClaim (j : DeletionJob) (worker : String) (token : Uuid)
    (now : Timestamp) (phase : ContentLockDeletionPhase) : Bool :=
  j.owned worker token now && j.phase == phase && j.forceRequestedAt.isNone

/-- The job queued again without a claim. -/
def DeletionJob.requeue (j : DeletionJob) (nextAttemptAt : Option Timestamp) : DeletionJob :=
  { j with state := .queued, nextAttemptAt, claimedBy := none, claimToken := none,
           claimExpiresAt := none }

/-- The job queued again from its first attempt. -/
def DeletionJob.restart (j : DeletionJob) : DeletionJob :=
  { j.requeue none with attemptCount := 0, failureCode := none }

structure TaskSnapshotRow where
  deletionJobId : Uuid
  verificationTaskId : TaskId
  statusAtCutoff : VerificationTaskStatus
  paykitAdmissionRequired : Bool
  resolvedStatus : Option VerificationTaskStatus
deriving DecidableEq

/-- A row of `content_lock_force_deletion_receipts`. -/
structure ForceReceipt where
  creator : CreatorPubky
  lockId : LockId
  forcedAt : Timestamp
  frozenContentLock : Option ContentLock
  completedAt : Option Timestamp
deriving DecidableEq

/-- The key of a row of `content_lock_publication_intents`. -/
structure IntentKey where
  creator : CreatorPubky
  lockId : LockId
deriving DecidableEq

/-! ## Folded-auth attempts -/

inductive FoldedAuthStatus where
  | pending
  | accepted
  | expired
  | restartRequired
deriving DecidableEq, Repr

/-- A `FoldedAuthStateHash`, as the number of its 256 bits. -/
structure StateHash where
  bits : ℕ
deriving DecidableEq, Repr

/-- A row of `folded_auth_attempts`; an encrypted flow secret is the secret it
    decrypts to. -/
structure FoldedAuthAttempt where
  creator : CreatorPubky
  bundleId : BundleId
  generation : ℕ
  stateHash : StateHash
  status : FoldedAuthStatus
  submittedProofBundle : SubmittedProofBundleV2
  pubkyLockResource : PubkyLockResource
  lockHash : LockHash
  verificationWindowSeconds : ℕ
  graph : GraphPolicyV2
  encryptedFlowSecret : Option (List UInt8)
  createdAt : Timestamp
  expiresAt : Timestamp
  pollDispatchedAt : Option Timestamp
  terminalAt : Option Timestamp
  purgeAfter : Option Timestamp
  taskId : Option TaskId
deriving DecidableEq

/-! ## The database -/

structure Database where
  tasks : List TaskRow
  jobs : List DeletionJob
  snapshots : List TaskSnapshotRow
  receipts : List ForceReceipt
  intents : List IntentKey
  attempts : List FoldedAuthAttempt
deriving DecidableEq

namespace Database

def empty : Database := ⟨[], [], [], [], [], []⟩

variable (db : Database)

def hasReceipt (c : CreatorPubky) (l : LockId) : Bool :=
  db.receipts.any fun r => r.creator == c && r.lockId == l

def jobFor? (c : CreatorPubky) (l : LockId) : Option DeletionJob :=
  db.jobs.find? fun j => j.creator == c && j.lockId == l

def job? (id : Uuid) : Option DeletionJob := db.jobs.find? fun j => j.jobId == id

def hasIntent (c : CreatorPubky) (l : LockId) : Bool :=
  db.intents.any fun i => i.creator == c && i.lockId == l

/-- A deletion froze the task: some snapshot row names it. -/
def frozen (id : TaskId) : Bool := db.snapshots.any fun s => s.verificationTaskId == id

/-- The receipt fence of the payment lane: a receipt of the row's creator for
    the lock of the submitted bundle. -/
def receiptFor (r : TaskRow) : Bool :=
  db.receipts.any fun f => f.creator == r.creator && r.resource == .of f.creator f.lockId

def task? (id : TaskId) : Option TaskRow := db.tasks.find? fun r => r.taskId == id

def tasksOf (c : CreatorPubky) (b : BundleId) : List TaskRow :=
  db.tasks.filter fun r => r.creator == c && r.bundleId == b

def foldedAuthPending (c : CreatorPubky) (b : BundleId) : Bool :=
  db.attempts.any fun a => a.creator == c && a.bundleId == b && a.status == .pending

/-- `reject_deletion_cutoff`: a deletion job or a receipt of the lock refuses
    new tasks. -/
def deletionCutoff (c : CreatorPubky) (l : LockId) : Bool :=
  (db.jobFor? c l).isSome || db.hasReceipt c l

/-- The tasks of a lock, as `insert_job` selects them. -/
def ofLock (c : CreatorPubky) (l : LockId) (r : TaskRow) : Bool :=
  r.creator == c && r.resource == .of c l

/-- An update of the tasks; the table refuses it if a row it writes violates a
    CHECK. -/
def updateTasks (u : TaskUpdate) : Option Database :=
  if db.tasks.all fun r => !u.guard r || (u.set r).checks then
    some { db with tasks := Table.updateWhere u.guard u.set db.tasks }
  else none

/-- `DELETE FROM content_lock_deletion_jobs` with the actions of the foreign
    keys. -/
def deleteJob (id : Uuid) : Database :=
  { db with
    jobs := db.jobs.filter (·.jobId != id)
    snapshots := db.snapshots.filter (·.deletionJobId != id)
    tasks := Table.updateWhere (·.deletionJobId == some id)
      (fun r => { r with deletionJobId := none }) db.tasks }

variable {db}

theorem updateTasks_eq_some {db' : Database} {u : TaskUpdate} :
    db.updateTasks u = some db' ↔ (∀ r ∈ db.tasks, u.guard r → (u.set r).checks) ∧
      db' = { db with tasks := Table.updateWhere u.guard u.set db.tasks } := by
  have hall : (db.tasks.all fun r => !u.guard r || (u.set r).checks) = true ↔
      ∀ r ∈ db.tasks, u.guard r → (u.set r).checks := by
    simp only [List.all_eq_true, Bool.or_eq_true, Bool.not_eq_true']
    exact forall₂_congr fun r _ => by cases u.guard r <;> simp
  unfold updateTasks
  split
  · rename_i h
    rw [Option.some.injEq, eq_comm]
    exact ⟨fun he => ⟨hall.1 h, he⟩, And.right⟩
  · rename_i h
    simp only [reduceCtorEq, false_iff, not_and]
    exact fun hc => absurd (hall.2 hc) h

theorem receiptFor_iff {r : TaskRow} : db.receiptFor r ↔ r.resource.creator = r.creator ∧
      db.hasReceipt r.creator r.resource.lockId := by
  simp only [receiptFor, hasReceipt, List.any_eq_true, Bool.and_eq_true, beq_iff_eq]
  constructor
  · rintro ⟨f, hf, hc, hr⟩
    rw [hr]
    exact ⟨hc, f, hf, hc, rfl⟩
  · rintro ⟨hr, f, hf, hc, hl⟩
    refine ⟨f, hf, hc, ?_⟩
    rw [hc, hl, ← hr]
    rfl

variable {c : CreatorPubky} {l : LockId}

theorem hasIntent_iff : db.hasIntent c l ↔ ∃ i ∈ db.intents, i.creator = c ∧ i.lockId = l := by
  simp only [hasIntent, List.any_eq_true, Bool.and_eq_true, beq_iff_eq]

theorem hasReceipt_iff : db.hasReceipt c l ↔ ∃ f ∈ db.receipts, f.creator = c ∧ f.lockId = l := by
  simp only [hasReceipt, List.any_eq_true, Bool.and_eq_true, beq_iff_eq]

theorem jobFor?_isSome_iff :
    (db.jobFor? c l).isSome ↔ ∃ j ∈ db.jobs, j.creator = c ∧ j.lockId = l := by
  simp only [jobFor?, List.find?_isSome, Bool.and_eq_true, beq_iff_eq]

theorem deletionCutoff_eq_false : db.deletionCutoff c l = false ↔
      (∀ j ∈ db.jobs, ¬ (j.creator = c ∧ j.lockId = l)) ∧ db.hasReceipt c l = false := by
  rw [deletionCutoff, Bool.or_eq_false_iff, ← Bool.not_eq_true,
    jobFor?_isSome_iff]
  simp only [not_exists, not_and]

theorem hasReceipt_cons {f : ForceReceipt} :
    Database.hasReceipt { db with receipts := f :: db.receipts } c l ↔
      (f.creator = c ∧ f.lockId = l) ∨ db.hasReceipt c l := by
  simp [Database.hasReceipt]

theorem hasReceipt_updateWhere {p : ForceReceipt → Bool} {f : ForceReceipt → ForceReceipt}
    (hf : ∀ x, (f x).creator = x.creator ∧ (f x).lockId = x.lockId) :
    Database.hasReceipt { db with receipts := Table.updateWhere p f db.receipts } c l =
      db.hasReceipt c l := by
  simp only [Database.hasReceipt, Table.updateWhere, List.any_map]
  congr 1
  funext x
  simp only [Function.comp]
  split
  · rw [(hf x).1, (hf x).2]
  · rfl

end Database

end PubkyLocks
