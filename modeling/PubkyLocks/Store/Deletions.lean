/-
  The transactions on deletion jobs and force-deletion receipts
  (`infrastructure/postgres/content_lock_deletions.rs`).

  Each function returns the tables after its commit, or `none` when it refuses
  or finds nothing to do.  The advisory lock of the content lock makes each of
  them one step against admissions; the row locks do so against each other.

  The tables of access credentials and of the access and payment drains are not
  modelled.  What `advance_phase` and `finish` read there comes in as
  `obligationsMet`.
-/
import PubkyLocks.Lanes.Statements

namespace PubkyLocks

open Checks (refuse)

/-! ## Jobs -/

def DeletionJob.validateFrozenIdentity (E : Externals) (j : DeletionJob) :
    Except ApplicationError Unit := do
  let actual ← (j.frozenContentLock.lockId E).mapError .contentLockCanonicalization
  refuse (actual ≠ j.lockId ∨ j.frozenContentLock.creator ≠ j.creator)
    (.invalidContentLockDeletionState "frozen content lock identity does not match deletion job")

def DeletionJob.validateState (j : DeletionJob) (hasActiveLease : Bool) :
    Except ApplicationError Unit :=
  let valid := match j.state with
    | .queued => !hasActiveLease && j.failureCode.isNone
    | .running => hasActiveLease && j.nextAttemptAt.isNone && j.failureCode.isNone
    | .completed => !hasActiveLease && j.nextAttemptAt.isNone && j.failureCode.isNone
    | .failed => !hasActiveLease && j.nextAttemptAt.isNone && j.failureCode.isSome
  refuse (!valid)
    (.invalidContentLockDeletionState "deletion lifecycle fields are inconsistent")

def DeletionJob.claim (j : DeletionJob) (l : JobLease) (expiresAt : Timestamp) : DeletionJob :=
  { j with state := .running, claimedBy := some l.workerId, claimToken := some l.claimToken,
           claimExpiresAt := some expiresAt, nextAttemptAt := none,
           attemptCount := j.attemptCount + 1 }

def DeletionJob.claimable (j : DeletionJob) (now : Timestamp) : Bool :=
  (j.state == .queued && TaskRow.dueBy j.nextAttemptAt now) ||
    (j.state == .running && TaskRow.passedBy j.claimExpiresAt now)

/-- The job in a terminal state: failed with a code, or completed. -/
def DeletionJob.close (j : DeletionJob) (failureCode : Option ContentLockDeletionFailureCode) :
    DeletionJob :=
  { j.requeue none with state := if failureCode.isSome then .failed else .completed, failureCode }

/-- The row of a new job: it starts at the admission cutoff, without a claim. -/
def DeletionJob.stored (job : DeletionJob) (admissionCutoff : Timestamp) : DeletionJob :=
  { job with deletionStartedAt := admissionCutoff, claimedBy := none, claimToken := none,
             claimExpiresAt := none }

namespace Deletion

def updateJob (db : Database) (id : Uuid) (f : DeletionJob → DeletionJob) : Database :=
  { db with jobs := Table.updateWhere (·.jobId == id) f db.jobs }

def updateJobFor (db : Database) (c : CreatorPubky) (l : LockId) (f : DeletionJob → DeletionJob) :
    Database :=
  { db with jobs := Table.updateWhere (fun j => j.creator == c && j.lockId == l) f db.jobs }

/-! ## `insert_job` -/

/-- A task that is being published: its status or its publication token says
    so. -/
def inPublication (r : TaskRow) : Bool :=
  r.status == .publishingEntitlement || r.entitlementPublicationClaimToken.isSome

/-- The snapshot row of a task of the lock, with the status the snapshot
    statement saw. -/
def snapshotOf (jobId : Uuid) (seen : TaskId → VerificationTaskStatus) (r : TaskRow) :
    TaskSnapshotRow where
  deletionJobId := jobId
  verificationTaskId := r.taskId
  statusAtCutoff := seen r.taskId
  paykitAdmissionRequired := r.hasPaykitProof
  resolvedStatus := if (seen r.taskId).isTerminal then some (seen r.taskId) else none

def jobKeyFree (db : Database) (j : DeletionJob) : Bool :=
  db.jobs.all fun k => k.jobId != j.jobId && !(k.creator == j.creator && k.lockId == j.lockId)

/-- `insert_job`.  Its snapshot statement reads the tasks of the lock before the
    freeze writes them, and the lanes commit in between: `seen` is the status of
    each task as the snapshot statement saw it. -/
def insertJob (E : Externals) (db : Database) (job : DeletionJob)
    (seen : TaskId → VerificationTaskStatus) (admissionCutoff : Timestamp) : Option Database :=
  if (job.validateFrozenIdentity E).isOk && (job.validateState false).isOk &&
      !db.tasks.any (fun r => Database.ofLock job.creator job.lockId r && inPublication r) &&
      !db.hasIntent job.creator job.lockId && !db.hasReceipt job.creator job.lockId &&
      jobKeyFree db job then
    { db with
      jobs := job.stored admissionCutoff :: db.jobs
      snapshots := (db.tasks.filter (Database.ofLock job.creator job.lockId)).map
        (snapshotOf job.jobId seen) ++ db.snapshots }.updateTasks
      (freeze job.jobId job.creator job.lockId)
  else none

/-! ## Working on a job -/

def claimNextJob (db : Database) (l : JobLease) (claimTtl : Duration) (now : Timestamp) :
    Option Database :=
  if (db.job? l.jobId).any (·.claimable now) then
    some (updateJob db l.jobId (·.claim l (now + claimTtl)))
  else none

def scheduleJobRetry (db : Database) (l : JobLease) (retryAfter : Duration) (now : Timestamp) :
    Option Database :=
  if (db.ownedJob? l now).isSome then
    some (updateJob db l.jobId (·.requeue (some (now + retryAfter))))
  else none

/-- `defer`: the attempt does not count. -/
def deferJob (db : Database) (l : JobLease) (deferFor : Duration) (now : Timestamp) :
    Option Database :=
  if (db.ownedJob? l now).isSome then
    some (updateJob db l.jobId fun j =>
      { j.requeue (some (now + deferFor)) with attemptCount := j.attemptCount - 1 })
  else none

def allSnapshotsTerminal (db : Database) (jobId : Uuid) : Bool :=
  db.snapshots.all fun s => s.deletionJobId != jobId || s.resolvedStatus.any (·.isTerminal)

def anyPaykitTask (db : Database) (jobId : Uuid) (p : TaskRow → Bool) : Bool :=
  db.snapshots.any fun s => s.deletionJobId == jobId && s.paykitAdmissionRequired &&
    (db.task? s.verificationTaskId).any p

def corruptReadyInvoice (r : TaskRow) : Bool :=
  r.invoiceAdmissionPhase == .ready &&
    (match r.invoiceCreatedAt, r.paymentDeadline with
      | some created, some deadline => deadline ≤ created
      | _, _ => true)

def statusResolvedAtCutoff (s : TaskSnapshotRow) : Option VerificationTaskStatus :=
  s.resolvedStatus.or (if s.statusAtCutoff.isTerminal then some s.statusAtCutoff else none)

/-- Snapshot rows of Paykit tasks that were terminal at the cutoff are
    resolved when the payment drain starts. -/
def resolveAtCutoff (jobId : Uuid) (snapshots : List TaskSnapshotRow) : List TaskSnapshotRow :=
  Table.updateWhere (fun s => s.deletionJobId == jobId && s.paykitAdmissionRequired)
    (fun s => { s with resolvedStatus := statusResolvedAtCutoff s }) snapshots

def advancePhase (db : Database) (l : JobLease) (next : ContentLockDeletionPhase)
    (obligationsMet : Bool) (now : Timestamp) : Option Database :=
  match db.ownedJob? l now with
  | none => none
  | some job =>
    if !job.phase.permits next || !obligationsMet then none
    else if next = .drainExistingCredentials && !allSnapshotsTerminal db l.jobId then none
    else if next = .startPaymentDrain &&
        (anyPaykitTask db l.jobId corruptReadyInvoice ||
          anyPaykitTask db l.jobId (·.invoiceAdmissionPhase == .invoicePending)) then none
    else
      let advanced := updateJob db l.jobId fun j => { j.restart with phase := next }
      some { advanced with
        snapshots := if next = .startPaymentDrain then resolveAtCutoff l.jobId db.snapshots
          else db.snapshots }

/-- `finish`: a failed job at any time, a completed one in the last phase. -/
def finish (db : Database) (l : JobLease) (failureCode : Option ContentLockDeletionFailureCode)
    (obligationsMet : Bool) (now : Timestamp) : Option Database :=
  match db.ownedJob? l now with
  | none => none
  | some job =>
    if failureCode.isNone && (job.phase ≠ .purgeOperationalState || !allSnapshotsTerminal db l.jobId ||
        !obligationsMet) then none
    else some (updateJob db l.jobId (·.close failureCode))

def failGracefulWithdrawal (db : Database) (jobId : Uuid)
    (failureCode : ContentLockDeletionFailureCode) : Option Database :=
  if (db.job? jobId).any fun j =>
      !j.state.isTerminal && j.phase == .withdraw && j.forceRequestedAt.isNone then
    some (updateJob db jobId (·.close (some failureCode)))
  else none

def resumeFailedJob (db : Database) (c : CreatorPubky) (l : LockId) : Option Database :=
  if !db.hasReceipt c l && (db.jobFor? c l).any (·.state == .failed) then
    some (updateJobFor db c l (·.restart))
  else none

/-- `expire_unresolved_non_paykit_tasks`; the lease is checked by the
    statement. -/
def expireUnresolvedTasks (db : Database) (l : JobLease) (now : Timestamp) : Option Database :=
  if TaskStatement.mayExpire db l now then
    (db.updateTasks (expireUnresolved db l.jobId now)).map fun db =>
      { db with
        snapshots := Table.updateWhere
          (fun s => s.deletionJobId == l.jobId && !s.paykitAdmissionRequired &&
            s.resolvedStatus.isNone)
          (fun s => { s with resolvedStatus := some .expired }) db.snapshots }
  else none

/-! ## Force deletion -/

/-- What `prepare_force_deletion_with_manifest` does: nothing while the lock is
    being published; on a known receipt it may add the manifest; a job that is
    worked on is escalated, a job with an entitlement in publication is only
    resumed; otherwise the receipt is written. -/
inductive ForcePreparation where
  | publicationInProgress
  | known
  | resumed
  | escalated
  | receipt (frozenContentLock : Option ContentLock)

/-- The decision on the job of a lock without an intent or a receipt. -/
def jobForcePreparation (db : Database) (c : CreatorPubky) (l : LockId)
    (manifest : Option ContentLock) : ForcePreparation :=
  match db.jobFor? c l with
  | none => .receipt manifest
  | some job =>
    if db.tasks.any fun r => r.deletionJobId == some job.jobId &&
        r.entitlementPublicationClaimToken.isSome then
      if job.state = .failed then .resumed else .publicationInProgress
    else if job.state.isTerminal then .receipt (some job.frozenContentLock)
    else .escalated

/-- The decision of `prepare_force_deletion_with_manifest`. -/
def forcePreparation (db : Database) (c : CreatorPubky) (l : LockId)
    (manifest : Option ContentLock) : ForcePreparation :=
  if db.hasIntent c l then .publicationInProgress
  else if db.hasReceipt c l then .known
  else jobForcePreparation db c l manifest

/-- The receipt of a known force deletion with the manifest, if it has none
    and is not completed. -/
def fillManifest (manifest : Option ContentLock) (f : ForceReceipt) : ForceReceipt :=
  if f.completedAt.isNone && f.frozenContentLock.isNone then { f with frozenContentLock := manifest }
  else f

/-- The writes of `prepare_force_deletion_with_manifest`. -/
def forcePrepared (db : Database) (c : CreatorPubky) (l : LockId) (manifest : Option ContentLock)
    (now : Timestamp) : ForcePreparation → Option Database
  | .publicationInProgress => none
  | .known =>
    some { db with
      receipts := Table.updateWhere (fun f => f.creator == c && f.lockId == l)
        (fillManifest manifest) db.receipts }
  | .resumed => some (updateJobFor db c l (·.restart))
  | .escalated =>
    some (updateJobFor db c l fun j =>
      { j.restart with forceRequestedAt := some (j.forceRequestedAt.getD now) })
  | .receipt frozenContentLock =>
    some { db with receipts := ⟨c, l, now, frozenContentLock, none⟩ :: db.receipts }

def prepareForceDeletion (db : Database) (c : CreatorPubky) (l : LockId)
    (manifest : Option ContentLock) (now : Timestamp) : Option Database :=
  forcePrepared db c l manifest now (forcePreparation db c l manifest)

def completeSynchronousForceDeletion (db : Database) (c : CreatorPubky) (l : LockId)
    (completedAt : Timestamp) : Option Database :=
  if db.hasReceipt c l then
    some { db with
      receipts := Table.updateWhere (fun f => f.creator == c && f.lockId == l)
        (fun f => { f with completedAt := some (f.completedAt.getD completedAt) }) db.receipts }
  else none

/-- `complete_force_deletion`: the receipt is written, the tasks are released
    and the job is deleted. -/
def completeForceDeletion (db : Database) (l : JobLease) (now : Timestamp) : Option Database :=
  match db.ownedJob? l now with
  | none => none
  | some job =>
    match job.forceRequestedAt with
    | none => none
    | some forcedAt =>
      if db.hasReceipt job.creator job.lockId then none
      else some ({ db with
        receipts := ⟨job.creator, job.lockId, forcedAt, some job.frozenContentLock, some now⟩ ::
          db.receipts }.deleteJob l.jobId)

end Deletion

end PubkyLocks
