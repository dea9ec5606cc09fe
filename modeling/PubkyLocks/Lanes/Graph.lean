/-
  The graph lane (`infrastructure/postgres/graph_tasks.rs`).
-/
import PubkyLocks.Lanes.Evaluator

namespace PubkyLocks

open Checks (refuse onSome)

/-! ## Records -/

structure GraphTaskRecord where
  taskId : TaskId
  snapshot : GraphTaskSnapshotV1
  evaluatorRevision : ℕ
  status : VerificationTaskStatus
  entitlementToPublish : Option VerifiedProofBundleV2
  entitlementPublicationToken : Option Uuid
  completedAt : Option Timestamp
deriving DecidableEq

def storageError (message : String) : ApplicationError := .storage message

def TaskRow.graphSnapshot (r : TaskRow) : Except ApplicationError GraphTaskSnapshotV1 :=
  match r.evaluator with
  | some (.graph s) => .ok s
  | _ => .error (storageError "non-graph evaluator row reached graph decoder")

/-- A stored entitlement, decoded as version 2. -/
def TaskRow.entitlementV2 (r : TaskRow) (message : String) :
    Except ApplicationError (Option VerifiedProofBundleV2) :=
  match r.entitlementToPublish with
  | none => .ok none
  | some (.v2 e) => .ok (some e)
  | some (.v1 _) => .error (storageError message)

/-- The entitlement names the task's creator, reader, handle and lock, and the
    path of its lane. -/
def VerifiedProofBundleV2.isFor (e : VerifiedProofBundleV2) (creator reader : CreatorPubky)
    (bundleId : BundleId) (resource : PubkyLockResource) (path : SatisfiedByV2) : Bool :=
  e.creator == creator && e.reader == reader && e.bundleId == bundleId &&
    e.pubkyLockResource == resource && e.satisfiedBy == [path]

/-- The lifecycle part of `row_to_task`: what a status says about the root and
    the columns. -/
def graphLifecycleMatches (r : TaskRow) (root : GraphRootState) : Bool :=
  match r.status with
  | .pending =>
    root == .pending && r.entitlementToPublish.isNone &&
      r.entitlementPublicationClaimToken.isNone && r.completedAt.isNone
  | .inProgress =>
    r.entitlementToPublish.isNone && r.entitlementPublicationClaimToken.isNone &&
      r.completedAt.isNone
  | .publishingEntitlement =>
    root == .satisfied && r.entitlementToPublish.isSome &&
      r.entitlementPublicationClaimToken.isSome && r.completedAt.isNone
  | .completed =>
    root == .satisfied && r.entitlementToPublish.isSome &&
      r.entitlementPublicationClaimToken.isNone && r.completedAt.isSome
  | .expired =>
    (root == .expired .false_ || r.terminalReason == some .contentLockDeleted) &&
      r.entitlementToPublish.isNone && r.entitlementPublicationClaimToken.isNone &&
      r.completedAt.isSome
  | .failed =>
    (root == .expired .dependencyUnavailable || root == .failedInvalidResponse) &&
      r.entitlementToPublish.isNone && r.entitlementPublicationClaimToken.isNone &&
      r.completedAt.isSome

def toGraphTask (r : TaskRow) : Except ApplicationError GraphTaskRecord := do
  let s ← r.graphSnapshot
  s.validate.mapError fun m =>
    storageError ("invalid graph task snapshot stored in Postgres: " ++ m)
  refuse (r.creator ≠ s.creator ∨ r.bundleId ≠ s.bundleId ∨ r.submittedAt ≠ s.acceptedAt ∨
      r.submittedProofBundle.bundleId ≠ s.bundleId ∨ r.resource ≠ s.pubkyLockResource)
    (storageError "graph task snapshot diverges from relational identity or timing")
  let e ← r.entitlementV2 "invalid graph entitlement payload stored in Postgres"
  onSome e fun e => do
    e.validate.mapError fun m =>
      storageError ("invalid graph entitlement payload stored in Postgres: " ++ m.message)
    refuse (!e.isFor s.creator s.reader s.bundleId s.pubkyLockResource .graph)
      (storageError "graph entitlement payload diverges from evaluator snapshot")
  refuse (!graphLifecycleMatches r s.root)
    (storageError "graph task lifecycle diverges from evaluator snapshot")
  pure { taskId := r.taskId, snapshot := s, evaluatorRevision := r.evaluatorRevision,
         status := r.status, entitlementToPublish := e,
         entitlementPublicationToken := r.entitlementPublicationClaimToken,
         completedAt := r.completedAt }

def GraphRootState.isExpired : GraphRootState → Bool
  | expired _ => true
  | pending | satisfied | failedInvalidResponse => false

def ensureSameBinding (current next : GraphTaskSnapshotV1) : Except ApplicationError Unit :=
  refuse (!(current.binding == next.binding))
    (.invalidVerificationTaskState "graph snapshot replacement changed immutable task binding")

theorem ensureSameBinding_eq_ok {current next : GraphTaskSnapshotV1} :
    ensureSameBinding current next = .ok () ↔ current.binding = next.binding := by
  simp [ensureSameBinding, Checks.refuse_eq_ok]

def invalidGraphSnapshot (m : String) : ApplicationError :=
  storageError ("invalid graph task snapshot: " ++ m)

namespace Graph

/-! ## Statements -/

/-- The row `insert_graph_task` and `insert_graph_task_tx` write for a
    snapshot. -/
def newRow (taskId : TaskId) (s : GraphTaskSnapshotV1) : TaskRow :=
  .inserted taskId s.creator s.bundleId (.v2 ⟨2, s.bundleId, s.pubkyLockResource, none⟩)
    s.acceptedAt (some (.graph s))

/-- The fence of the lane: no deletion has frozen the task. -/
def fence (db : Database) (r : TaskRow) : Bool :=
  r.deletionJobId.isNone && !db.frozen r.taskId

def claimNext (db : Database) (l : Lease) (now claimExpiresAt dbNow : Timestamp) : TaskUpdate where
  guard r :=
    now < claimExpiresAt && r.taskId == l.taskId && fence db r &&
      r.graphRoot?.any fun root => Evaluator.claimable root.kind dbNow r
  set := Evaluator.claimSet l now claimExpiresAt dbNow

/-- The row and revision a snapshot of the lane replaces. -/
def claimed (db : Database) (l : Lease) (expectedRevision : ℕ) (dbNow : Timestamp) (r : TaskRow) :
    Bool :=
  l.holds r dbNow && r.status == .inProgress && r.evaluatorRevision == expectedRevision &&
    expectedRevision < REVISION_MAX && fence db r

def persistChecks (next : GraphTaskSnapshotV1) (dbNow : Timestamp) (r : TaskRow) :
    Except ApplicationError Unit := do
  let current := (← toGraphTask r).snapshot
  next.validate.mapError invalidGraphSnapshot
  (next.validateObservationsNotAfter dbNow).mapError invalidGraphSnapshot
  ensureSameBinding current next
  onSome (if current ≠ next ∨ current.root = .pending then some current else none) fun current =>
    (next.validateProgressFrom current).mapError invalidGraphSnapshot
  refuse (next.root.isExpired && dbNow < next.deadlineAt)
    (.invalidVerificationTaskState "graph task cannot expire before its deadline")

/-- The row a root leads to, with its entitlement. -/
def outcome (s : GraphTaskSnapshotV1) (dbNow : Timestamp) : Evaluator.Outcome :=
  match s.root with
  | .pending => ⟨.inProgress, none, none, true⟩
  | .satisfied =>
    ⟨.publishingEntitlement, none,
      some (Evaluator.publication s.creator s.reader s.bundleId s.pubkyLockResource .graph dbNow),
      true⟩
  | .expired .false_ => ⟨.expired, some .graphConditionNotObservedByDeadline, none, false⟩
  | .expired .dependencyUnavailable =>
    ⟨.failed, some .verificationUnavailableByDeadline, none, false⟩
  | .failedInvalidResponse => ⟨.failed, some .invalidVerifierResponse, none, false⟩

/-- The entitlement of an outcome, if any, passes its own check. -/
def publicationValid (o : Evaluator.Outcome) : Bool :=
  o.entitlement.all fun e => e.validate.isOk

def persist (db : Database) (l : Lease) (expectedRevision : ℕ) (next : GraphTaskSnapshotV1)
    (publicationToken : Uuid) (dbNow : Timestamp) : TaskUpdate where
  guard r :=
    claimed db l expectedRevision dbNow r && (persistChecks next dbNow r).isOk &&
      publicationValid (outcome next dbNow)
  set := Evaluator.persistSet (.graph next) (outcome next dbNow) publicationToken dbNow

def scheduleChecks (next : GraphTaskSnapshotV1) (retryDelay : Duration) (dbNow : Timestamp)
    (r : TaskRow) : Except ApplicationError Unit := do
  let current := (← toGraphTask r).snapshot
  refuse (retryDelay ≤ 0)
    (.invalidVerificationTaskState "graph retry delay must be positive")
  next.validate.mapError invalidGraphSnapshot
  (next.validateObservationsNotAfter dbNow).mapError invalidGraphSnapshot
  ensureSameBinding current next
  (next.validateProgressFrom current).mapError invalidGraphSnapshot
  refuse (next.root ≠ .pending)
    (.invalidVerificationTaskState "graph retry requires pending snapshot")

def scheduleRetry (db : Database) (l : Lease) (expectedRevision : ℕ) (next : GraphTaskSnapshotV1)
    (now nextAttemptAt dbNow : Timestamp) : TaskUpdate where
  guard r :=
    claimed db l expectedRevision dbNow r &&
      (scheduleChecks next (nextAttemptAt - now) dbNow r).isOk
  set := Evaluator.scheduleSet (.graph next) (min (dbNow + (nextAttemptAt - now)) next.deadlineAt)

/-- The rows `release_claimed_graph_task` sets back to pending. -/
def reopens (r : TaskRow) : Bool := r.status == .inProgress && r.graphRoot? == some .pending

/-- `release_claimed_graph_task`; `started_at` is not written. -/
def release (l : Lease) : TaskUpdate where
  guard r := l.names r && r.isGraph
  set r := { r.clearClaims with status := if reopens r then .pending else r.status }

def acquireLive (db : Database) (l : Lease) (expectedRevision : ℕ) (publicationToken : Uuid)
    (dbNow : Timestamp) (r : TaskRow) : Bool :=
  r.isGraph && Evaluator.publishing l expectedRevision publicationToken dbNow r && fence db r

/-- `complete_claimed_graph_publication`, and the same statement of the
    publication guard. -/
def complete (db : Database) (l : Lease) (expectedRevision : ℕ) (publicationToken : Uuid)
    (dbNow : Timestamp) : TaskUpdate where
  guard r :=
    r.isGraph && Evaluator.publishing l expectedRevision publicationToken dbNow r &&
      r.entitlementToPublish.isSome && fence db r
  set := Evaluator.completeSet dbNow

/-! ## The state check -/

theorem claimNext_keeps (db : Database) (l : Lease) (now claimExpiresAt dbNow : Timestamp) :
    (claimNext db l now claimExpiresAt dbNow).Keeps := by
  intro r hr hg
  simp only [claimNext, Bool.and_eq_true] at hg
  obtain ⟨root, -, hc⟩ := (Option.any_eq_true _ _).1 hg.2
  exact Evaluator.claimSet_check hr hc

theorem outcome_allowed (s : GraphTaskSnapshotV1) (dbNow : Timestamp) :
    (outcome s dbNow).Allowed := by
  unfold outcome
  split <;> simp [Evaluator.Outcome.Allowed, VerificationTerminalReason.ofExpired,
    VerificationTerminalReason.ofFailed]

theorem claimed_iff {db : Database} {l : Lease} {n : ℕ} {dbNow : Timestamp} {r : TaskRow} :
    claimed db l n dbNow r ↔ l.holds r dbNow ∧ r.status = .inProgress ∧
      r.evaluatorRevision = n ∧ n < REVISION_MAX ∧ fence db r := by
  simp only [claimed, Bool.and_eq_true, beq_iff_eq, decide_eq_true_eq, and_assoc]

section
variable (db : Database) (l : Lease) (n : ℕ)
include db l n

theorem persist_keeps (next : GraphTaskSnapshotV1) (k : Uuid)
    (dbNow : Timestamp) : (persist db l n next k dbNow).Keeps := by
  intro r hr hg
  simp only [persist, Bool.and_eq_true, claimed_iff] at hg
  obtain ⟨⟨⟨hl, hs, -⟩, -⟩, -⟩ := hg
  exact Evaluator.persistSet_check hr hs (l.claimsSet_of_holds hl) (outcome_allowed next dbNow)

theorem scheduleRetry_keeps (next : GraphTaskSnapshotV1) (now nextAttemptAt dbNow : Timestamp) :
    (scheduleRetry db l n next now nextAttemptAt dbNow).Keeps := by
  intro r hr hg
  simp only [scheduleRetry, Bool.and_eq_true, claimed_iff] at hg
  exact Evaluator.scheduleSet_check hr hg.1.2.1

theorem complete_keeps (k : Uuid) (dbNow : Timestamp) : (complete db l n k dbNow).Keeps := by
  intro r hr hg
  simp only [complete, Bool.and_eq_true] at hg
  exact Evaluator.completeSet_check hr (Evaluator.status_of_publishing hg.1.1.2)

end

/-- **The release of a graph claim keeps the state check exactly on the rows
    it does not set back to pending.** -/
theorem release_check_iff (l : Lease) {r : TaskRow} (hr : r.stateCheck) :
    ((release l).set r).stateCheck ↔ ¬ reopens r := by
  by_cases hre : reopens r
  · -- back to pending, with the `started_at` that a row in progress has
    have hs : r.status = .inProgress := by
      simp only [reopens, Bool.and_eq_true, beq_iff_eq] at hre
      exact hre.1
    obtain ⟨hst, -⟩ := (TaskRow.stateCheck_inProgress hs).1 hr
    have hs' : ((release l).set r).status = .pending := by simp [release, hre]
    rw [TaskRow.stateCheck_pending hs']
    simp only [hre, not_true_eq_false, iff_false]
    rintro ⟨hnone, -⟩
    have : r.startedAt.isNone := hnone
    cases hstart : r.startedAt <;> simp [hstart] at hst this
  · have hset : (release l).set r = r.clearClaims := by simp [release, hre, TaskRow.clearClaims]
    rw [hset]
    exact iff_of_true (TaskRow.stateCheck_clearClaims hr) hre

end Graph

end PubkyLocks
