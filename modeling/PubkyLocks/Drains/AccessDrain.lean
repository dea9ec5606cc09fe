/-
  The access that a deletion owes: ordinary credentials enrolled at its cutoff,
  final credentials issued for completed payments, and the reads claimed with
  them (`infrastructure/postgres/access_credentials.rs`, and the obligations that
  `content_lock_deletions.rs` checks before a phase).

  `DrainStore` adds the tables of access credentials, and the columns of jobs and
  task snapshots that only they use, to the tables of the service.  Every
  operation is one transaction: it holds the row of the job.
-/
import PubkyLocks.Access.ProxyRead
import PubkyLocks.Publishing.Repository
import PubkyLocks.Store.Jobs

namespace PubkyLocks

open Checks (refuse okOr)

/-! ## Tables -/

/-- A bearer token. -/
structure AccessCredential where
  text : String
deriving DecidableEq, Repr

/-- A row of `content_lock_access_drain_credentials` with all of its columns; an
    encrypted bearer is the bearer it decrypts to. -/
structure DrainCredentialRow extends DrainCredential where
  bundleId : BundleId
  issuedAt : Timestamp
  encryptedBearer : Option AccessCredential
deriving DecidableEq

structure FinalAccessWindows where
  issuanceStartedAt : Timestamp
  credentialIssuanceDeadline : Timestamp
  readDeadline : Timestamp
deriving DecidableEq, Repr

/-- The final access windows of a job, columns of `content_lock_deletion_jobs`
    that are set together. -/
structure JobWindows where
  jobId : Uuid
  windows : FinalAccessWindows
deriving DecidableEq, Repr

/-- The access columns of a row of `content_lock_deletion_task_snapshot`, with
    its key and its handle. -/
structure AccessObligation where
  deletionJobId : Uuid
  verificationTaskId : TaskId
  creator : CreatorPubky
  bundleId : BundleId
  hadActiveCredentialAtCutoff : Bool
  finalCredentialEligibleAt : Option Timestamp
  finalCredentialIssuedAt : Option Timestamp
deriving DecidableEq

/-- The tables of the service and those of the access to its content. -/
structure DrainStore where
  db : Database
  credentials : List AccessCredentialRow
  drainCredentials : List DrainCredentialRow
  drainReads : List DrainRead
  windows : List JobWindows
  obligations : List AccessObligation
deriving DecidableEq

structure IssuedDeletionCredential where
  credential : AccessCredential
  expiresAt : Timestamp
deriving DecidableEq

/-- A row that violates a unique constraint. -/
def uniqueViolation : ApplicationError :=
  .storage "duplicate key value violates unique constraint"

def DeletionJob.new (E : Externals) (jobId : Uuid) (frozenContentLock : ContentLock)
    (deletionStartedAt : Timestamp) : Except ApplicationError DeletionJob := do
  let lockId ← (frozenContentLock.lockId E).mapError .contentLockCanonicalization
  pure { jobId, creator := frozenContentLock.creator, lockId, frozenContentLock, deletionStartedAt,
         state := .queued, phase := .withdraw, attemptCount := 0, nextAttemptAt := none,
         forceRequestedAt := none, failureCode := none, claimedBy := none, claimToken := none,
         claimExpiresAt := none }

namespace DrainStore

def empty : DrainStore := ⟨.empty, [], [], [], [], []⟩

variable (s : DrainStore)

def windows? (jobId : Uuid) : Option FinalAccessWindows :=
  (s.windows.find? (·.jobId == jobId)).map (·.windows)

/-- The tables as the reads of guarded resources use them. -/
def credentialStore : CredentialStore where
  credentials := s.credentials
  drainCredentials := s.drainCredentials.map (·.toDrainCredential)
  drainReads := s.drainReads
  jobs := s.db.jobs.map fun j => ⟨j, (s.windows? j.jobId).map (·.readDeadline)⟩

def readOf (jobId : Uuid) (r : DrainRead) : Bool :=
  s.drainCredentials.any fun d => d.deletionJobId == jobId && d.credentialId == r.credentialId

def clearClaims (jobId : Uuid) (p : DrainRead → Bool) : DrainStore :=
  { s with
    drainReads := Table.updateWhere (fun r => s.readOf jobId r && p r)
      (fun r => { r with claimToken := none, claimExpiresAt := none }) s.drainReads }

def revokeReadClaims (jobId : Uuid) : DrainStore :=
  s.clearClaims jobId (·.claimToken.isSome)

/-! ## Ordinary credentials -/

def insertAccessCredential (lockId : LockId) (key : LookupKey) (record : AccessCredentialRecord) :
    Except ApplicationError DrainStore := do
  refuse (s.db.deletionCutoff record.creator lockId) .contentLockDeletionInProgress
  refuse (s.credentials.any (·.lookupKey == key)) (.duplicateRecord "access_credential")
  pure { s with credentials := ⟨key, record, none⟩ :: s.credentials }

def credential? (key : LookupKey) : Option AccessCredentialRow :=
  s.credentials.find? (·.lookupKey == key)

/-- `DELETE FROM access_credentials` with the actions of the foreign keys. -/
def deleteCredential (key : LookupKey) : DrainStore :=
  { s with
    credentials := s.credentials.filter (·.lookupKey != key)
    drainCredentials := s.drainCredentials.filter (·.lookupKey != key)
    drainReads := s.drainReads.filter fun r =>
      !s.drainCredentials.any fun d => d.lookupKey == key && d.credentialId == r.credentialId }

def finishOrdinaryCredentialLookup (key : LookupKey) (expected : AccessCredentialRecord)
    (invalidate : Bool) : OrdinaryCredentialLookupResult × DrainStore :=
  match s.credential? key with
  | none => (.missing, s)
  | some row =>
    if row.record ≠ expected then (.missing, s)
    else if row.deletionJobId.isSome then (.deletionEnrolled, s)
    else if invalidate then (.missing, s.deleteCredential key)
    else (.ordinaryCurrent, s)

/-! ## The cutoff -/

/-- The task of the credential is frozen by the job, and it runs at the cutoff. -/
def attaches (job : DeletionJob) (admissionCutoff : Timestamp) (c : AccessCredentialRow) : Bool :=
  s.db.tasks.any (fun r => Database.ofLock job.creator job.lockId r &&
    r.creator == c.record.creator && r.bundleId == c.record.bundleId) &&
    admissionCutoff < c.record.expiresAt

def attached (job : DeletionJob) (admissionCutoff : Timestamp) : List AccessCredentialRow :=
  s.credentials.filter (s.attaches job admissionCutoff)

/-- The access columns of a snapshot row: `active` says what the statement before
    saw of the credentials of the task. -/
def obligationOf (job : DeletionJob) (seen : TaskId → VerificationTaskStatus)
    (active : TaskId → Bool) (admissionCutoff : Timestamp) (r : TaskRow) : AccessObligation where
  deletionJobId := job.jobId
  verificationTaskId := r.taskId
  creator := r.creator
  bundleId := r.bundleId
  hadActiveCredentialAtCutoff := active r.taskId
  finalCredentialEligibleAt :=
    if seen r.taskId = .completed && r.hasPaykitProof && !active r.taskId then some admissionCutoff
    else none
  finalCredentialIssuedAt := none

def drainOf (job : DeletionJob) (credentialId : LookupKey → Uuid) (admissionCutoff : Timestamp)
    (c : AccessCredentialRow) : DrainCredentialRow where
  credentialId := credentialId c.lookupKey
  deletionJobId := job.jobId
  lookupKey := c.lookupKey
  creator := c.record.creator
  kind := .ordinary
  expiresAt := c.record.expiresAt
  bundleId := c.record.bundleId
  issuedAt := admissionCutoff
  encryptedBearer := none

def drainKeysFree (rows : List DrainCredentialRow) : Bool :=
  rows.all (fun d => s.drainCredentials.all fun e =>
    e.credentialId != d.credentialId && e.lookupKey != d.lookupKey) &&
    decide ((rows.map (·.credentialId)).Nodup)

/-- What `insert_job` does to the access tables. -/
def enroll (job : DeletionJob) (seen : TaskId → VerificationTaskStatus) (active : TaskId → Bool)
    (credentialId : LookupKey → Uuid) (admissionCutoff : Timestamp) : Option DrainStore :=
  let rows := (s.attached job admissionCutoff).map (drainOf job credentialId admissionCutoff)
  if s.drainKeysFree rows then
    some { s with
      credentials := Table.updateWhere (s.attaches job admissionCutoff)
        (fun c => { c with deletionJobId := some job.jobId }) s.credentials
      drainCredentials := rows ++ s.drainCredentials
      obligations := (s.db.tasks.filter (Database.ofLock job.creator job.lockId)).map
        (obligationOf job seen active admissionCutoff) ++ s.obligations }
  else none

/-! ## Final credentials -/

/-- `initialize_final_access_windows`; `none` if the claim is lost. -/
def initializeFinalAccessWindows (l : JobLease) (issuanceWindow readWindow : Duration)
    (now : Timestamp) : Except ApplicationError (Option FinalAccessWindows × DrainStore) := do
  refuse (issuanceWindow ≤ 0 ∨ readWindow ≤ 0)
    (.storage "final access window durations must be positive")
  match s.db.job? l.jobId with
  | none => return (none, s)
  | some job =>
    if !job.ownsLiveDrainClaim l.workerId l.claimToken now .issueFinalCredentials then
      return (none, s)
    match s.windows? job.jobId with
    | some windows => return (some windows, s)
    | none =>
      let issuanceDeadline ← okOr (now.checkedAdd issuanceWindow)
        (.storage "final credential issuance deadline overflow")
      let readDeadline ← okOr (issuanceDeadline.checkedAdd readWindow)
        (.storage "final read deadline overflow")
      let windows : FinalAccessWindows := ⟨now, issuanceDeadline, readDeadline⟩
      return (some windows, { s with windows := ⟨job.jobId, windows⟩ :: s.windows })

def hasEligibleSnapshot (jobId : Uuid) (bundleId : BundleId) : Bool :=
  s.obligations.any fun o =>
    o.deletionJobId == jobId && o.bundleId == bundleId && o.finalCredentialEligibleAt.isSome &&
      s.db.snapshots.any fun q => q.deletionJobId == jobId &&
        q.verificationTaskId == o.verificationTaskId && q.resolvedStatus == some .completed

def finalCredential? (jobId : Uuid) (creator : CreatorPubky) (bundleId : BundleId) :
    Option DrainCredentialRow :=
  s.drainCredentials.find? fun d => d.deletionJobId == jobId && d.creator == creator &&
    d.bundleId == bundleId && d.kind == .final

section
variable (E : Externals) (deriveKey : AccessCredential → LookupKey)

def insertFinalCredential (job : DeletionJob) (creator : CreatorPubky) (bundleId : BundleId)
    (candidate : AccessCredential) (credentialId : Uuid) (expiresAt now : Timestamp) :
    Except ApplicationError DrainStore := do
  (job.frozenContentLock.validateResourceSet E).mapError fun e =>
    .corruptContentLockDeletionManifest
      ("invalid frozen content lock stored in Postgres: " ++ e.message)
  let key := deriveKey candidate
  refuse (s.credentials.any (·.lookupKey == key)) uniqueViolation
  let row : DrainCredentialRow :=
    { credentialId, deletionJobId := job.jobId, lookupKey := key, creator, kind := .final,
      expiresAt, bundleId, issuedAt := now, encryptedBearer := some candidate }
  let paths := publicationGuardedPaths job.frozenContentLock
  refuse (!s.drainKeysFree [row] || (s.finalCredential? job.jobId creator bundleId).isSome ||
    !decide paths.Nodup) uniqueViolation
  pure { s with
    credentials := ⟨key, ⟨creator, bundleId, expiresAt⟩, some job.jobId⟩ :: s.credentials
    drainCredentials := row :: s.drainCredentials
    drainReads := paths.map (⟨credentialId, ·, none, none, none⟩) ++ s.drainReads
    obligations := Table.updateWhere
      (fun o => o.deletionJobId == job.jobId && o.bundleId == bundleId &&
        o.finalCredentialIssuedAt.isNone)
      (fun o => { o with finalCredentialIssuedAt := some now }) s.obligations }

/-- The end of both ways to a final credential, on the locked job: a replay, or
    a new credential where `mayInsert` says that it is still time. -/
def issueFor (job : DeletionJob) (creator : CreatorPubky) (bundleId : BundleId)
    (candidate : AccessCredential) (credentialId : Uuid) (expiresAt now : Timestamp)
    (mayInsert : Bool) :
    Except ApplicationError (Option IssuedDeletionCredential × DrainStore) := do
  if !s.hasEligibleSnapshot job.jobId bundleId then return (none, s)
  match (s.finalCredential? job.jobId creator bundleId).bind (·.encryptedBearer) with
  | some credential => return (some ⟨credential, expiresAt⟩, s)
  | none =>
    if !mayInsert then return (none, s)
    let s' ← s.insertFinalCredential E deriveKey job creator bundleId candidate credentialId
      expiresAt now
    return (some ⟨candidate, expiresAt⟩, s')

/-- The job that `issue_or_replay_final_credential` locks. -/
def issueJob? (creator : CreatorPubky) (bundleId : BundleId) : Option DeletionJob :=
  s.db.jobs.find? fun j => j.creator == creator && !j.state.isTerminal &&
    j.forceRequestedAt.isNone &&
    (j.phase == .issueFinalCredentials || j.phase == .drainFinalReads) &&
    s.hasEligibleSnapshot j.jobId bundleId

def issueOrReplayFinalCredential (creator : CreatorPubky) (bundleId : BundleId)
    (candidate : AccessCredential) (credentialId : Uuid) (now : Timestamp) :
    Except ApplicationError (Option IssuedDeletionCredential × DrainStore) := do
  match s.issueJob? creator bundleId with
  | none => return (none, s)
  | some job =>
    let windows ← okOr (s.windows? job.jobId) (.storage "unexpected null")
    if windows.readDeadline ≤ now then return (none, s)
    s.issueFor E deriveKey job creator bundleId candidate credentialId windows.readDeadline now
      (job.phase = .issueFinalCredentials && now < windows.credentialIssuanceDeadline)

/-- The job of the worker, with its windows, if it may issue a credential. -/
def workerIssueJob? (l : JobLease) (creator : CreatorPubky) (now : Timestamp) :
    Option (DeletionJob × FinalAccessWindows) :=
  (s.db.job? l.jobId).bind fun job =>
    (s.windows? job.jobId).bind fun windows =>
      if job.creator = creator &&
          job.ownsLiveDrainClaim l.workerId l.claimToken now .issueFinalCredentials &&
          now < windows.credentialIssuanceDeadline && now < windows.readDeadline then
        some (job, windows)
      else none

def issueOrReplayFinalCredentialForWorker (l : JobLease) (creator : CreatorPubky)
    (bundleId : BundleId) (candidate : AccessCredential) (credentialId : Uuid) (now : Timestamp) :
    Except ApplicationError (Option IssuedDeletionCredential × DrainStore) :=
  match s.workerIssueJob? l creator now with
  | none => .ok (none, s)
  | some (job, windows) =>
    s.issueFor E deriveKey job creator bundleId candidate credentialId windows.readDeadline now true

end

/-! ## Final reads -/

def prepareDeletionRead (key : LookupKey) (path : String) (claimDuration : Duration)
    (dbNow : Timestamp) (token : Uuid) :
    Except ApplicationError (Option DeletionReadAuthorization) × DrainStore :=
  let (result, store) := s.credentialStore.prepareDeletionRead key path claimDuration dbNow token
  (result, { s with drainReads := store.drainReads })

def releaseDeletionRead (key : LookupKey) (path : String) (token : Uuid) : DrainStore :=
  { s with drainReads := (s.credentialStore.releaseDeletionRead key path token).drainReads }

/-- The read of a credential that `consume_deletion_read` may end. -/
def consumable (key : LookupKey) (path : String) (token : Uuid) (now : Timestamp)
    (r : DrainRead) : Bool :=
  (s.credentialStore.drainCredential? key).any fun d =>
    (s.credentialStore.activeDrainJob? d.deletionJobId).any fun j =>
      r.credentialId == d.credentialId && r.guardedPath == path &&
        (j.job.phase == .issueFinalCredentials || j.job.phase == .drainFinalReads) &&
        j.finalReadDeadline.any (now < ·) && now < d.expiresAt && r.claimToken == some token &&
        r.claimExpiresAt.any (now < ·) && r.consumedAt.isNone

def consumeDeletionRead (key : LookupKey) (path : String) (token : Uuid) (now : Timestamp) :
    Bool × DrainStore :=
  (s.drainReads.any (s.consumable key path token now),
    { s with
      drainReads := Table.updateWhere (s.consumable key path token now)
        (fun r => { r with claimToken := none, claimExpiresAt := none, consumedAt := some now })
        s.drainReads })

/-! ## The phases of a job -/

def ordinaryActive (jobId : Uuid) (now : Timestamp) : Bool :=
  s.drainCredentials.any fun d =>
    d.deletionJobId == jobId && d.kind == .ordinary && now < d.expiresAt

/-- An eligible snapshot row of the job has no final credential. -/
def unissuedEligible (jobId : Uuid) : Bool :=
  s.obligations.any fun o => o.deletionJobId == jobId && o.finalCredentialEligibleAt.isSome &&
    o.finalCredentialIssuedAt.isNone

/-- The read of a running final credential of the job is not consumed. -/
def unconsumedRead (jobId : Uuid) (now : Timestamp) : Bool :=
  s.drainCredentials.any fun d =>
    d.deletionJobId == jobId && d.kind == .final && now < d.expiresAt &&
      s.drainReads.any fun r => r.credentialId == d.credentialId && r.consumedAt.isNone

def claimedRead (jobId : Uuid) (now : Timestamp) : Bool :=
  s.drainReads.any fun r =>
    s.readOf jobId r && r.claimToken.isSome && r.claimExpiresAt.any (now < ·)

/-- `has_live_access_obligations`: the expired claims are cleared on the way. -/
def hasLiveAccessObligations (jobId : Uuid) (now : Timestamp) : Bool × DrainStore :=
  let s := s.clearClaims jobId fun r => r.claimToken.isSome && r.claimExpiresAt.any (· ≤ now)
  (s.ordinaryActive jobId now || s.unconsumedRead jobId now || s.claimedRead jobId now, s)

end DrainStore

inductive AccessPhaseAdvanceStatus where
  | ready
  | obligationsPending
  | finalCredentialIssuanceMissed
deriving DecidableEq, Repr

namespace DrainStore

variable (s : DrainStore)

def checkAccessObligationsForPhase (jobId : Uuid) (current next : ContentLockDeletionPhase)
    (now : Timestamp) : AccessPhaseAdvanceStatus × DrainStore :=
  match current, next with
  | .drainExistingCredentials, .issueFinalCredentials =>
    (if s.ordinaryActive jobId now then .obligationsPending else .ready, s)
  | .issueFinalCredentials, .drainFinalReads =>
    (if s.unissuedEligible jobId then
        if (s.windows? jobId).any (·.credentialIssuanceDeadline ≤ now) then
          .finalCredentialIssuanceMissed
        else .obligationsPending
      else .ready, s)
  | .drainFinalReads, .deleteContent =>
    let (live, s) := s.hasLiveAccessObligations jobId now
    (if live then .obligationsPending else .ready, s)
  | _, _ => (.ready, s)

/-- `advance_phase` with the access that is owed.  `paymentDrainCompleted` is the
    check `ensure_payment_drain_completed`. -/
def advancePhase (l : JobLease) (next : ContentLockDeletionPhase) (paymentDrainCompleted : Bool)
    (now : Timestamp) : Option DrainStore :=
  (s.db.ownedJob? l now).bind fun job =>
    if !job.phase.permits next then none
    else match s.checkAccessObligationsForPhase l.jobId job.phase next now with
      | (.ready, s) =>
        (Deletion.advancePhase s.db l next (next ≠ .drainExistingCredentials ||
          paymentDrainCompleted) now).map fun db =>
            let s := { s with db }
            if next = .deleteContent then s.revokeReadClaims l.jobId else s
      | (_, s) => some s

/-- `finish` with the access that is owed. -/
def finish (l : JobLease) (failureCode : Option ContentLockDeletionFailureCode)
    (paymentDrainCompleted : Bool) (now : Timestamp) : Option DrainStore :=
  let (live, cleared) := s.hasLiveAccessObligations l.jobId now
  let ok := paymentDrainCompleted && !live && !cleared.unissuedEligible l.jobId
  (Deletion.finish s.db l failureCode ok now).map fun db =>
    { (if failureCode.isNone then cleared else s) with db }.revokeReadClaims l.jobId

/-- The end of a drained payment: `persist_terminal_obligation` marks the
    snapshot row eligible for a final credential. -/
def markEligible (l : JobLease) (id : TaskId) (now : Timestamp) : DrainStore :=
  { s with
    obligations := Table.updateWhere
      (fun o => o.deletionJobId == l.jobId && o.verificationTaskId == id)
      (fun o => { o with
        finalCredentialEligibleAt := if o.hadActiveCredentialAtCutoff then none else some now })
      s.obligations }

/-- The drain rows that go with a job: its own and those of its credentials. -/
def removedWith (jobId : Uuid) (d : DrainCredentialRow) : Bool :=
  d.deletionJobId == jobId ||
    s.credentials.any fun c => c.deletionJobId == some jobId && c.lookupKey == d.lookupKey

/-- The actions of the foreign keys when a job is deleted. -/
def deleteJob (jobId : Uuid) : DrainStore :=
  { s with
    credentials := s.credentials.filter (·.deletionJobId != some jobId)
    drainCredentials := s.drainCredentials.filter (!s.removedWith jobId ·)
    drainReads := s.drainReads.filter fun r =>
      !s.drainCredentials.any fun d => s.removedWith jobId d && d.credentialId == r.credentialId
    windows := s.windows.filter (·.jobId != jobId)
    obligations := s.obligations.filter (·.deletionJobId != jobId) }

/-- What a transaction of the service that commits with the tables `db` does to
    the access tables.  The ones that read them are operations of their own. -/
def after (db : Database) : Operation → Option DrainStore
  | .insertJob _ _ _ | .advancePhase _ _ _ _ | .finish _ _ _ _ => none
  | .statement (.drainComplete l id _ now) => some { s.markEligible l id now with db }
  | .prepareForceDeletion c l m _ =>
    match Deletion.forcePreparation s.db c l m, s.db.jobFor? c l with
    | .escalated, some job => some { s.revokeReadClaims job.jobId with db }
    | _, _ => some { s with db }
  | .completeForceDeletion l _ => some { s.deleteJob l.jobId with db }
  | _ => some { s with db }

end DrainStore

/-! ## The transactions -/

/-- The transactions on the tables of the service and of its access. -/
inductive DrainOperation where
  | service (op : Operation)
  | insertJob (jobId : Uuid) (frozenContentLock : ContentLock)
      (seen : TaskId → VerificationTaskStatus) (active : TaskId → Bool)
      (credentialId : LookupKey → Uuid) (admissionCutoff : Timestamp)
  | advancePhase (l : JobLease) (next : ContentLockDeletionPhase) (paymentDrainCompleted : Bool)
      (now : Timestamp)
  | finish (l : JobLease) (failureCode : Option ContentLockDeletionFailureCode)
      (paymentDrainCompleted : Bool) (now : Timestamp)
  | insertAccessCredential (lockId : LockId) (key : LookupKey) (record : AccessCredentialRecord)
  | finishOrdinaryCredentialLookup (key : LookupKey) (expected : AccessCredentialRecord)
      (invalidate : Bool)
  | initializeFinalAccessWindows (l : JobLease) (issuanceWindow readWindow : Duration)
      (now : Timestamp)
  | issueOrReplayFinalCredential (creator : CreatorPubky) (bundleId : BundleId)
      (candidate : AccessCredential) (credentialId : Uuid) (now : Timestamp)
  | issueOrReplayFinalCredentialForWorker (l : JobLease) (creator : CreatorPubky)
      (bundleId : BundleId) (candidate : AccessCredential) (credentialId : Uuid) (now : Timestamp)
  | prepareDeletionRead (key : LookupKey) (path : String) (claimDuration : Duration)
      (now : Timestamp) (token : Uuid)
  | releaseDeletionRead (key : LookupKey) (path : String) (token : Uuid)
  | consumeDeletionRead (key : LookupKey) (path : String) (token : Uuid) (now : Timestamp)

/-- A claim of a final read that `prepare_deletion_read` granted. -/
structure GrantedClaim where
  credentialId : Uuid
  guardedPath : String
  claimToken : Uuid
  expiresAt : Timestamp
deriving DecidableEq

namespace DrainOperation

variable (E : Externals) (deriveKey : AccessCredential → LookupKey)

/-- The tables after the transaction; `none` if it fails. -/
def run (s : DrainStore) : DrainOperation → Option DrainStore
  | service op => (op.run E s.db).bind fun db => s.after db op
  | insertJob jobId frozen seen active credentialId t =>
    match DeletionJob.new E jobId frozen t with
    | .error _ => none
    | .ok job =>
      (Deletion.insertJob E s.db job seen t).bind fun db =>
        (s.enroll job seen active credentialId t).map fun s => { s with db }
  | advancePhase l next completed now => s.advancePhase l next completed now
  | finish l code completed now => s.finish l code completed now
  | insertAccessCredential lockId key record =>
    (s.insertAccessCredential lockId key record).toOption
  | finishOrdinaryCredentialLookup key expected invalidate =>
    some (s.finishOrdinaryCredentialLookup key expected invalidate).2
  | initializeFinalAccessWindows l issuance read now =>
    (s.initializeFinalAccessWindows l issuance read now).toOption.map (·.2)
  | issueOrReplayFinalCredential c b candidate id now =>
    (s.issueOrReplayFinalCredential E deriveKey c b candidate id now).toOption.map (·.2)
  | issueOrReplayFinalCredentialForWorker l c b candidate id now =>
    (s.issueOrReplayFinalCredentialForWorker E deriveKey l c b candidate id now).toOption.map (·.2)
  | prepareDeletionRead key path d now token => some (s.prepareDeletionRead key path d now token).2
  | releaseDeletionRead key path token => some (s.releaseDeletionRead key path token)
  | consumeDeletionRead key path token now => some (s.consumeDeletionRead key path token now).2

def dbNow? : DrainOperation → Option Timestamp
  | service op => op.dbNow?
  | insertJob _ _ _ _ _ t | advancePhase _ _ _ t | finish _ _ _ t
  | initializeFinalAccessWindows _ _ _ t | issueOrReplayFinalCredential _ _ _ _ t
  | issueOrReplayFinalCredentialForWorker _ _ _ _ _ t | prepareDeletionRead _ _ _ t _
  | consumeDeletionRead _ _ _ t => some t
  | insertAccessCredential _ _ _ | finishOrdinaryCredentialLookup _ _ _
  | releaseDeletionRead _ _ _ => none

def draws (s : DrainStore) : DrainOperation → List Uuid
  | insertJob jobId frozen _ _ credentialId t =>
    jobId :: match DeletionJob.new E jobId frozen t with
      | .error _ => []
      | .ok job => (s.attached job t).map fun c => credentialId c.lookupKey
  | issueOrReplayFinalCredential _ _ _ id _ | issueOrReplayFinalCredentialForWorker _ _ _ _ id _ =>
    [id]
  | _ => []

/-- The final credential that the transaction returns, with its job and its
    bundle. -/
def issued? (s : DrainStore) :
    DrainOperation → Option (Uuid × BundleId × IssuedDeletionCredential)
  | issueOrReplayFinalCredential c b candidate id now =>
    match s.issueOrReplayFinalCredential E deriveKey c b candidate id now with
    | .ok (some issued, _) => (s.issueJob? c b).map fun j => (j.jobId, b, issued)
    | _ => none
  | issueOrReplayFinalCredentialForWorker l c b candidate id now =>
    match s.issueOrReplayFinalCredentialForWorker E deriveKey l c b candidate id now with
    | .ok (some issued, _) => some (l.jobId, b, issued)
    | _ => none
  | _ => none

def granted? (s : DrainStore) : DrainOperation → Option GrantedClaim
  | prepareDeletionRead key path d now token =>
    match s.prepareDeletionRead key path d now token, s.credentialStore.drainCredential? key with
    | (.ok (some ⟨some token, _, _⟩), s'), some credential =>
      ((s'.drainReads.find? fun r => r.credentialId == credential.credentialId &&
          r.guardedPath == path).bind (·.claimExpiresAt)).map
        fun expiresAt => ⟨credential.credentialId, path, token, expiresAt⟩
    | _, _ => none
  | _ => none

/-- The read that the transaction consumes: its credential and its path. -/
def consumed? (s : DrainStore) : DrainOperation → Option (Uuid × String)
  | consumeDeletionRead key path token now =>
    if (s.consumeDeletionRead key path token now).1 then
      (s.credentialStore.drainCredential? key).map fun d => (d.credentialId, path)
    else none
  | _ => none

end DrainOperation

/-- The tables, the last time read off the database clock, the ids drawn so far
    and the claims granted so far, the last one first. -/
structure DrainWorld where
  store : DrainStore
  clock : Timestamp
  drawn : List Uuid
  granted : List GrantedClaim
deriving DecidableEq

namespace DrainWorld

def init (clock : Timestamp) : DrainWorld := ⟨.empty, clock, [], []⟩

def latestClaim? (w : DrainWorld) (credentialId : Uuid) (path : String) : Option GrantedClaim :=
  w.granted.find? fun g => g.credentialId == credentialId && g.guardedPath == path

/-- One transaction; an id is drawn once. -/
def exec (E : Externals) (deriveKey : AccessCredential → LookupKey) (w : DrainWorld)
    (op : DrainOperation) : Option DrainWorld :=
  if (op.draws E w.store).all (!w.drawn.contains ·) then
    (op.run E deriveKey w.store).map fun store =>
      { store, clock := op.dbNow?.getD w.clock, drawn := op.draws E w.store ++ w.drawn,
        granted := (op.granted? w.store).toList ++ w.granted }
  else none

end DrainWorld

end PubkyLocks
