/-
  The payment lane (`infrastructure/postgres/payment_tasks.rs`).

  Unlike the graph lane, every statement is fenced by the force-deletion
  receipts, and `release` clears `started_at`.  The repository does not look at
  the reason of a terminal root; `persist` keeps the state check because the
  worker only hands it closed roots (`PaymentRootState.Closed`).
-/
import PubkyLocks.Lanes.Graph

namespace PubkyLocks

open Checks (refuse onSome)

/-! ## Records -/

structure PaymentTaskRecord where
  taskId : TaskId
  snapshot : PaymentTaskSnapshotV1
  evaluatorRevision : ℕ
  status : VerificationTaskStatus
  entitlementToPublish : Option VerifiedProofBundleV2
  entitlementPublicationToken : Option Uuid
  completedAt : Option Timestamp
deriving DecidableEq

def TaskRow.paymentSnapshot (r : TaskRow) : Except ApplicationError PaymentTaskSnapshotV1 :=
  match r.evaluator with
  | some (.payment s) => .ok s
  | _ => .error (storageError "non-payment evaluator row reached payment decoder")

def toPaymentTask (r : TaskRow) : Except ApplicationError PaymentTaskRecord := do
  let s ← r.paymentSnapshot
  s.validate.mapError fun m => storageError ("invalid payment snapshot: " ++ m)
  refuse (r.creator ≠ s.creator ∨ r.bundleId ≠ s.bundleId ∨ r.submittedAt ≠ s.acceptedAt ∨
      r.submittedProofBundle ≠ .v2 s.submittedProofBundle)
    (storageError "payment snapshot diverges from relational identity")
  let e ← r.entitlementV2 "invalid payment entitlement"
  onSome e fun e => do
    e.validate.mapError fun m => storageError ("invalid payment entitlement: " ++ m.message)
    refuse (!e.isFor s.creator s.reader s.bundleId s.pubkyLockResource .payment)
      (storageError "payment entitlement diverges from snapshot")
  refuse (r.terminalReason ≠ s.root.terminalReason)
    (storageError "payment terminal reason diverges from root")
  pure { taskId := r.taskId, snapshot := s, evaluatorRevision := r.evaluatorRevision,
         status := r.status, entitlementToPublish := e,
         entitlementPublicationToken := r.entitlementPublicationClaimToken,
         completedAt := r.completedAt }

def invalidState (m : String) : ApplicationError := .invalidVerificationTaskState m

namespace Payment

/-! ## Statements -/

/-- The fence of `persist` and `schedule`: no deletion job and no receipt. -/
def receiptFence (db : Database) (r : TaskRow) : Bool :=
  r.deletionJobId.isNone && !db.receiptFor r

/-- The fence of the other statements: the task is not frozen either. -/
def fence (db : Database) (r : TaskRow) : Bool :=
  receiptFence db r && !db.frozen r.taskId

def claimNext (db : Database) (l : Lease) (now claimExpiresAt dbNow : Timestamp) : TaskUpdate where
  guard r :=
    now < claimExpiresAt && r.taskId == l.taskId && fence db r &&
      r.paymentRoot?.any fun root => Evaluator.claimable root.kind dbNow r
  set := Evaluator.claimSet l now claimExpiresAt dbNow

/-- The row and revision a snapshot of the lane replaces. -/
def claimed (db : Database) (l : Lease) (expectedRevision : ℕ) (dbNow : Timestamp) (r : TaskRow) :
    Bool :=
  l.holds r dbNow && r.status == .inProgress && r.evaluatorRevision == expectedRevision &&
    expectedRevision < REVISION_MAX && receiptFence db r

def persistChecks (next : PaymentTaskSnapshotV1) (r : TaskRow) : Except ApplicationError Unit := do
  let current := (← toPaymentTask r).snapshot
  (next.validateProgressFrom current).mapError invalidState

/-- The row a root leads to, with its entitlement. -/
def outcome (s : PaymentTaskSnapshotV1) (dbNow : Timestamp) : Evaluator.Outcome :=
  match s.root with
  | .pending => ⟨.inProgress, none, none, true⟩
  | .satisfied =>
    ⟨.publishingEntitlement, none,
      some (Evaluator.publication s.creator s.reader s.bundleId s.pubkyLockResource .payment dbNow),
      true⟩
  | .expired reason => ⟨.expired, some reason, none, false⟩
  | .failed reason => ⟨.failed, some reason, none, false⟩

def persist (db : Database) (l : Lease) (expectedRevision : ℕ) (next : PaymentTaskSnapshotV1)
    (publicationToken : Uuid) (dbNow : Timestamp) : TaskUpdate where
  guard r :=
    claimed db l expectedRevision dbNow r && (persistChecks next r).isOk &&
      Graph.publicationValid (outcome next dbNow)
  set := Evaluator.persistSet (.payment next) (outcome next dbNow) publicationToken dbNow

def scheduleChecks (next : PaymentTaskSnapshotV1) (delay : Duration) (r : TaskRow) :
    Except ApplicationError Unit := do
  refuse (delay ≤ 0) (invalidState "payment retry delay must be positive")
  let current := (← toPaymentTask r).snapshot
  (next.validateProgressFrom current).mapError invalidState
  refuse (next.root ≠ .pending) (invalidState "payment retry requires pending root")

def scheduleRetry (db : Database) (l : Lease) (expectedRevision : ℕ)
    (next : PaymentTaskSnapshotV1) (callerNow nextAttemptAt dbNow : Timestamp) : TaskUpdate where
  guard r :=
    claimed db l expectedRevision dbNow r &&
      (scheduleChecks next (nextAttemptAt - callerNow) r).isOk
  set := Evaluator.scheduleSet (.payment next)
    (min (dbNow + (nextAttemptAt - callerNow)) next.deadlineAt)

/-- The rows `release_claimed_payment_task` sets back to pending. -/
def reopens (r : TaskRow) : Bool := r.status == .inProgress && r.paymentRoot? == some .pending

def release (db : Database) (l : Lease) : TaskUpdate where
  guard r := l.names r && r.isPayment && fence db r
  set r :=
    { r.clearClaims with
      status := if reopens r then .pending else r.status
      startedAt := if reopens r then none else r.startedAt }

def acquireLive (db : Database) (l : Lease) (expectedRevision : ℕ) (publicationToken : Uuid)
    (dbNow : Timestamp) (r : TaskRow) : Bool :=
  r.isPayment && Evaluator.publishing l expectedRevision publicationToken dbNow r && fence db r

/-- `complete_claimed_payment_publication`, and the same statement of the
    publication guard. -/
def complete (db : Database) (l : Lease) (expectedRevision : ℕ) (publicationToken : Uuid)
    (dbNow : Timestamp) : TaskUpdate where
  guard r :=
    r.isPayment && Evaluator.publishing l expectedRevision publicationToken dbNow r &&
      r.entitlementToPublish.isSome && fence db r
  set := Evaluator.completeSet dbNow

/-! ## The state check -/

theorem claimNext_keeps (db : Database) (l : Lease) (now claimExpiresAt dbNow : Timestamp) :
    (claimNext db l now claimExpiresAt dbNow).Keeps := by
  intro r hr hg
  simp only [claimNext, Bool.and_eq_true] at hg
  obtain ⟨root, -, hc⟩ := (Option.any_eq_true _ _).1 hg.2
  exact Evaluator.claimSet_check hr hc

theorem outcome_allowed {s : PaymentTaskSnapshotV1} (dbNow : Timestamp) (hs : s.root.Closed) :
    (outcome s dbNow).Allowed := by
  unfold outcome
  split <;> rename_i h <;> rw [h] at hs
  · exact ⟨rfl, rfl, rfl⟩
  · exact ⟨rfl, rfl, rfl⟩
  · exact ⟨VerificationTerminalReason.ofExpired_of_ofPaymentExpiry hs, rfl, rfl⟩
  · exact ⟨hs, rfl, rfl⟩

theorem claimed_iff {db : Database} {l : Lease} {n : ℕ} {dbNow : Timestamp} {r : TaskRow} :
    claimed db l n dbNow r ↔ l.holds r dbNow ∧ r.status = .inProgress ∧
      r.evaluatorRevision = n ∧ n < REVISION_MAX ∧ receiptFence db r := by
  simp only [claimed, Bool.and_eq_true, beq_iff_eq, decide_eq_true_eq, and_assoc]

section
variable (db : Database) (l : Lease)
include db l

theorem persist_keeps (n : ℕ) {next : PaymentTaskSnapshotV1} (k : Uuid)
    (dbNow : Timestamp) (hn : next.root.Closed) : (persist db l n next k dbNow).Keeps := by
  intro r hr hg
  simp only [persist, Bool.and_eq_true, claimed_iff] at hg
  obtain ⟨⟨⟨hl, hs, -⟩, -⟩, -⟩ := hg
  exact Evaluator.persistSet_check hr hs (l.claimsSet_of_holds hl) (outcome_allowed dbNow hn)

theorem scheduleRetry_keeps (n : ℕ) (next : PaymentTaskSnapshotV1)
    (callerNow nextAttemptAt dbNow : Timestamp) :
    (scheduleRetry db l n next callerNow nextAttemptAt dbNow).Keeps := by
  intro r hr hg
  simp only [scheduleRetry, Bool.and_eq_true, claimed_iff] at hg
  exact Evaluator.scheduleSet_check hr hg.1.2.1

theorem release_keeps : (release db l).Keeps := by
  intro r hr _
  by_cases hre : reopens r
  · have hs : r.status = .inProgress := by
      simp only [reopens, Bool.and_eq_true, beq_iff_eq] at hre
      exact hre.1
    obtain ⟨-, hu, he, -⟩ := (TaskRow.stateCheck_inProgress hs).1 hr
    have hs' : ((release db l).set r).status = .pending := by simp [release, hre]
    exact (TaskRow.stateCheck_pending hs').2 ⟨by simp [release, hre], hu, he, .inl rfl⟩
  · have hset : (release db l).set r = r.clearClaims := by
      simp [release, hre, TaskRow.clearClaims]
    rw [hset]
    exact TaskRow.stateCheck_clearClaims hr

theorem complete_keeps (n : ℕ) (k : Uuid) (dbNow : Timestamp) :
    (complete db l n k dbNow).Keeps := by
  intro r hr hg
  simp only [complete, Bool.and_eq_true] at hg
  exact Evaluator.completeSet_check hr (Evaluator.status_of_publishing hg.1.1.2)

end

end Payment

end PubkyLocks
