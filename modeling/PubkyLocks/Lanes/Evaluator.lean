/-
  What the two version-2 lanes share: the claim condition on the root of the
  evaluator snapshot, and the columns that claiming, persisting, rescheduling
  and completing a task write (`graph_tasks.rs` and `payment_tasks.rs` spell
  the same assignments out twice).

  An `Outcome` is what a root means for the row: its status, reason and
  entitlement.  `Outcome.Allowed` says that the state check allows it, and
  `persistSet_check` that persisting an allowed outcome on a claimed row in
  progress keeps the check.
-/
import PubkyLocks.Lanes.V1
import PubkyLocks.Store.Database

namespace PubkyLocks

open TaskRow

/-- `evaluator_snapshot->'root'->>'status'`: pending, satisfied, or one of the
    terminal roots without an entitlement. -/
inductive RootKind where
  | pending
  | satisfied
  | closed
deriving DecidableEq, Repr

def GraphRootState.kind : GraphRootState → RootKind
  | pending => .pending
  | satisfied => .satisfied
  | expired _ | failedInvalidResponse => .closed

def PaymentRootState.kind : PaymentRootState → RootKind
  | pending => .pending
  | satisfied => .satisfied
  | expired _ | failed _ => .closed

/-- The largest revision the column `evaluator_revision` holds. -/
def REVISION_MAX : ℕ := 2 ^ 63 - 1

namespace Evaluator

/-! ## Claims -/

def claimable (root : RootKind) (dbNow : Timestamp) (r : TaskRow) : Bool :=
  (root == .pending &&
    ((r.status == .pending && TaskRow.dueBy r.nextAttemptAt dbNow) ||
      (r.status == .inProgress && TaskRow.passedBy r.claimExpiresAt dbNow))) ||
  (root == .satisfied && r.status == .publishingEntitlement &&
    TaskRow.dueBy r.claimExpiresAt dbNow && TaskRow.dueBy r.nextAttemptAt dbNow) ||
  (root != .pending && r.status == .inProgress && TaskRow.dueBy r.claimExpiresAt dbNow)

def claimSet (l : Lease) (now claimExpiresAt dbNow : Timestamp) (r : TaskRow) : TaskRow :=
  { r.setClaim l.workerId l.claimToken (dbNow + (claimExpiresAt - now)) with
    status := if r.status = .publishingEntitlement then r.status else .inProgress
    startedAt := some (r.startedAt.getD dbNow) }

variable {root : RootKind} {dbNow : Timestamp} {r : TaskRow} {l : Lease}
  {snapshot : EvaluatorSnapshot} {n : ℕ} {k : Uuid}

theorem active_of_claimable (h : claimable root dbNow r) :
    r.status = .pending ∨ r.status = .inProgress ∨ r.status = .publishingEntitlement := by
  simp only [claimable, Bool.or_eq_true, Bool.and_eq_true, beq_iff_eq] at h
  rcases h with (⟨-, ⟨h, -⟩ | ⟨h, -⟩⟩ | ⟨⟨⟨-, h⟩, -⟩, -⟩) | ⟨⟨-, h⟩, -⟩
  · exact .inl h
  · exact .inr (.inl h)
  · exact .inr (.inr h)
  · exact .inr (.inl h)

theorem claimSet_check {now claimExpiresAt : Timestamp} (hr : r.stateCheck)
    (h : claimable root dbNow r) :
    (claimSet l now claimExpiresAt dbNow r).stateCheck := by
  rcases active_of_claimable h with hs | hs | hs
  · obtain ⟨-, hu, he, -⟩ := (stateCheck_pending hs).1 hr
    exact (stateCheck_inProgress (by simp [claimSet, hs])).2 ⟨rfl, hu, he, .inr rfl⟩
  · obtain ⟨-, hu, he, -⟩ := (stateCheck_inProgress hs).1 hr
    exact (stateCheck_inProgress (by simp [claimSet, hs])).2 ⟨rfl, hu, he, .inr rfl⟩
  · obtain ⟨-, hu, he, -⟩ := (stateCheck_publishing hs).1 hr
    exact (stateCheck_publishing (by simp [claimSet, hs])).2 ⟨rfl, hu, he, .inr rfl⟩

/-! ## Outcomes -/

structure Outcome where
  status : VerificationTaskStatus
  reason : Option VerificationTerminalReason
  entitlement : Option VerifiedProofBundleV2
  retain : Bool
deriving DecidableEq

/-- The state check allows the outcome on a claimed row in progress. -/
def Outcome.Allowed (o : Outcome) : Prop :=
  match o.status with
  | .inProgress => o.reason = none ∧ o.entitlement = none ∧ o.retain
  | .publishingEntitlement => o.reason = none ∧ o.entitlement.isSome ∧ o.retain
  | .expired => o.reason.any (·.ofExpired) ∧ o.entitlement = none ∧ o.retain = false
  | .failed => o.reason.any (·.ofFailed) ∧ o.entitlement = none ∧ o.retain = false
  | .pending | .completed => False

/-- The entitlement a lane publishes for a satisfied root. -/
def publication (creator reader : CreatorPubky) (bundleId : BundleId)
    (resource : PubkyLockResource) (path : SatisfiedByV2) (dbNow : Timestamp) :
    VerifiedProofBundleV2 :=
  { version := VERIFIED_PROOF_BUNDLE_V2_VERSION, creator, reader, bundleId,
    pubkyLockResource := resource, verifiedAt := dbNow, satisfiedBy := [path] }

/-- The columns the persistence of a snapshot writes. -/
def persistSet (snapshot : EvaluatorSnapshot) (o : Outcome) (publicationToken : Uuid)
    (dbNow : Timestamp) (r : TaskRow) : TaskRow :=
  { r.retainClaims o.retain with
    evaluator := some snapshot
    evaluatorRevision := r.evaluatorRevision + 1
    status := o.status
    terminalReason := o.reason
    failureMessage := none
    completedAt := if o.retain then none else some dbNow
    entitlementToPublish := o.entitlement.map .v2
    entitlementPublicationClaimToken := o.entitlement.map fun _ => publicationToken
    nextAttemptAt := none }

theorem persistSet_check {o : Outcome} {token : Uuid} (hr : r.stateCheck)
    (hs : r.status = .inProgress)
    (hc : r.claimsSet) (ho : o.Allowed) : (persistSet snapshot o token dbNow r).stateCheck := by
  obtain ⟨hstart, -, -, -⟩ := (stateCheck_inProgress hs).1 hr
  have hst : (persistSet snapshot o token dbNow r).startedAt.isSome := by
    cases hret : o.retain <;>
      simpa [persistSet, retainClaims, clearClaims, hret] using hstart
  cases hos : o.status with
  | pending => rw [Outcome.Allowed, hos] at ho; exact ho.elim
  | completed => rw [Outcome.Allowed, hos] at ho; exact ho.elim
  | inProgress =>
    rw [Outcome.Allowed, hos] at ho
    obtain ⟨hreason, hent, hret⟩ := ho
    refine (stateCheck_inProgress hos).2 ⟨hst, ?_, ?_, .inr ?_⟩
    · simp [unfinished, persistSet, hreason, hret]
    · simp [persistSet, hent]
    · simpa [persistSet, claimsSet, retainClaims, hret] using hc
  | publishingEntitlement =>
    rw [Outcome.Allowed, hos] at ho
    obtain ⟨hreason, hent, hret⟩ := ho
    refine (stateCheck_publishing hos).2 ⟨hst, ?_, ?_, .inr ?_⟩
    · simp [unfinished, persistSet, hreason, hret]
    · simpa [persistSet] using hent
    · simpa [persistSet, claimsSet, retainClaims, hret] using hc
  | expired =>
    rw [Outcome.Allowed, hos] at ho
    obtain ⟨hreason, hent, hret⟩ := ho
    refine (stateCheck_expired hos).2 ⟨hst, by simp [persistSet, hret], ?_, ?_, ?_⟩
    · simpa [expiryShape, persistSet] using hreason
    · simp [persistSet, hent]
    · simp [persistSet, claimsNull, retainClaims, clearClaims, hret]
  | failed =>
    rw [Outcome.Allowed, hos] at ho
    obtain ⟨hreason, hent, hret⟩ := ho
    refine (stateCheck_failed hos).2 ⟨hst, by simp [persistSet, hret], ?_, ?_, ?_⟩
    · simp [failureShape, persistSet, hreason]
    · simp [persistSet, hent]
    · simp [persistSet, claimsNull, retainClaims, clearClaims, hret]

/-! ## Retries and completions -/

/-- The columns the retry of a snapshot writes. -/
def scheduleSet (snapshot : EvaluatorSnapshot) (nextAttemptAt : Timestamp) (r : TaskRow) :
    TaskRow :=
  { r.clearClaims with
    evaluator := some snapshot
    evaluatorRevision := r.evaluatorRevision + 1
    status := .pending
    startedAt := none
    nextAttemptAt := some nextAttemptAt }

theorem scheduleSet_check {next : Timestamp} (hr : r.stateCheck) (hs : r.status = .inProgress) :
    (scheduleSet snapshot next r).stateCheck := by
  obtain ⟨-, hu, he, -⟩ := (stateCheck_inProgress hs).1 hr
  exact (stateCheck_pending rfl).2 ⟨rfl, hu, he, .inl rfl⟩

/-- The publication a worker acts on: the row is being published under its
    lease, at the revision and with the publication token it knows. -/
def publishing (l : Lease) (expectedRevision : ℕ) (publicationToken : Uuid) (dbNow : Timestamp)
    (r : TaskRow) : Bool :=
  l.holds r dbNow && r.status == .publishingEntitlement && expectedRevision ≤ REVISION_MAX &&
    r.evaluatorRevision == expectedRevision &&
    r.entitlementPublicationClaimToken == some publicationToken

/-- The columns the completion of a publication writes. -/
def completeSet (dbNow : Timestamp) (r : TaskRow) : TaskRow :=
  { r.clearClaims with
    status := .completed
    completedAt := some dbNow
    nextAttemptAt := none
    entitlementPublicationClaimToken := none }

theorem completeSet_check (hr : r.stateCheck)
    (hs : r.status = .publishingEntitlement) : (completeSet dbNow r).stateCheck := by
  obtain ⟨hst, hu, he, -⟩ := (stateCheck_publishing hs).1 hr
  simp only [unfinished, Bool.and_eq_true] at hu
  exact (stateCheck_completed rfl).2 ⟨hst, rfl, hu.1.2, hu.2, he, rfl⟩

theorem status_of_publishing
    (h : publishing l n k dbNow r) : r.status = .publishingEntitlement := by
  simp only [publishing, Bool.and_eq_true, beq_iff_eq] at h
  exact h.1.1.1.2

theorem taskId_of_publishing (h : publishing l n k dbNow r) : r.taskId = l.taskId := by
  simp only [publishing, Lease.holds, Bool.and_eq_true, beq_iff_eq] at h
  exact h.1.1.1.1.1

end Evaluator

end PubkyLocks
