/-
  The updates of task rows by content-lock deletions: the payment drain
  (`infrastructure/postgres/payment_drains.rs`), and freezing, expiring and
  releasing tasks (`infrastructure/postgres/content_lock_deletions.rs`).

  Each of them keeps the state check.
-/
import PubkyLocks.Lanes.Payment

namespace PubkyLocks

open TaskRow

/-! ## The payment drain -/

/-- What a deletion worker presents with every statement on its claimed job. -/
structure JobLease where
  jobId : Uuid
  workerId : String
  claimToken : Uuid
deriving DecidableEq

/-- The job the lease holds at `now`, `load_owned_claim`. -/
def Database.ownedJob? (db : Database) (l : JobLease) (now : Timestamp) : Option DeletionJob :=
  (db.job? l.jobId).filter (·.owned l.workerId l.claimToken now)

def Database.drains (db : Database) (l : JobLease) (now : Timestamp) : Bool :=
  (db.job? l.jobId).any (·.ownsLiveDrainClaim l.workerId l.claimToken now .drainPayments)

/-- The job froze the task, for Paykit or not as `paykit` says, and has not
    resolved it. -/
def Database.unresolved (db : Database) (jobId : Uuid) (paykit : Bool) (id : TaskId) : Bool :=
  db.snapshots.any fun s =>
    s.deletionJobId == jobId && s.verificationTaskId == id &&
      s.paykitAdmissionRequired == paykit && s.resolvedStatus.isNone

namespace Drain

/-- The task has neither an entitlement nor a publication token. -/
def unpublished (r : TaskRow) : Bool :=
  (r.status == .pending || r.status == .inProgress) && r.entitlementToPublish.isNone &&
    r.entitlementPublicationClaimToken.isNone

def beginPublication (db : Database) (l : JobLease) (taskId : TaskId)
    (entitlement : VerifiedProofBundle) (publicationToken : Uuid) (now : Timestamp) :
    TaskUpdate where
  guard r :=
    r.taskId == taskId && db.drains l now && db.unresolved l.jobId true taskId &&
      r.deletionJobId == some l.jobId &&
      (unpublished r ||
        (r.status == .publishingEntitlement && r.entitlementToPublish == some (.v1 entitlement) &&
          r.entitlementPublicationClaimToken.isSome))
  set r :=
    { r with
      status := .publishingEntitlement
      startedAt := some (r.startedAt.getD now)
      entitlementToPublish := some (r.entitlementToPublish.getD (.v1 entitlement))
      entitlementPublicationClaimToken :=
        some (r.entitlementPublicationClaimToken.getD publicationToken) }

/-- `persist_terminal_obligation` for a published entitlement. -/
def persistCompleted (db : Database) (l : JobLease) (taskId : TaskId) (publicationToken : Uuid)
    (now : Timestamp) : TaskUpdate where
  guard r :=
    r.taskId == taskId && db.drains l now && db.unresolved l.jobId true taskId &&
      r.deletionJobId == some l.jobId && r.status == .publishingEntitlement &&
      r.entitlementToPublish.isSome && r.entitlementPublicationClaimToken == some publicationToken
  set r :=
    { r.clearClaims with
      status := .completed
      completedAt := some now
      failureMessage := none
      terminalReason := none
      nextAttemptAt := none
      entitlementPublicationClaimToken := none }

/-- `persist_terminal_obligation` for a payment that ended without one, with
    the reason the drain reads off the payment request. -/
def persistExpired (db : Database) (l : JobLease) (taskId : TaskId)
    (reason : VerificationTerminalReason) (now : Timestamp) : TaskUpdate where
  guard r :=
    r.taskId == taskId && db.drains l now && db.unresolved l.jobId true taskId &&
      r.deletionJobId == some l.jobId && unpublished r
  set r :=
    { r.clearClaims with
      status := .expired
      startedAt := some (r.startedAt.getD now)
      completedAt := some now
      failureMessage := none
      terminalReason := some reason
      entitlementToPublish := none
      nextAttemptAt := none
      entitlementPublicationClaimToken := none }

end Drain

/-! ## Freezing, expiring and releasing tasks -/

namespace Deletion

/-- `CASE WHEN task.invoice_admission_phase = 'invoice_pending' THEN column ELSE NULL END`. -/
def keepIfInvoicePending {α : Type} (r : TaskRow) (column : Option α) : Option α :=
  if r.invoiceAdmissionPhase = .invoicePending then column else none

def open_ (r : TaskRow) : Bool := r.status == .pending || r.status == .inProgress

def freeze (jobId : Uuid) (creator : CreatorPubky) (lockId : LockId) : TaskUpdate where
  guard r := Database.ofLock creator lockId r
  set r :=
    { r with
      status := if open_ r then .pending else r.status
      startedAt := if open_ r then none else r.startedAt
      claimedBy := keepIfInvoicePending r r.claimedBy
      claimToken := keepIfInvoicePending r r.claimToken
      claimExpiresAt := keepIfInvoicePending r r.claimExpiresAt
      nextAttemptAt := keepIfInvoicePending r r.nextAttemptAt
      deletionJobId := some jobId }

/-- The snapshot of a payment task closed by the deletion of its lock. -/
def closeSnapshot : EvaluatorSnapshot → EvaluatorSnapshot
  | .payment s => .payment { s with root := .expired .contentLockDeleted }
  | .graph s => .graph s

def expireUnresolved (db : Database) (jobId : Uuid) (now : Timestamp) : TaskUpdate where
  guard r := db.unresolved jobId false r.taskId && open_ r
  set r :=
    { r.clearClaims with
      status := .expired
      startedAt := some (r.startedAt.getD now)
      completedAt := some now
      failureMessage := none
      terminalReason := some .contentLockDeleted
      evaluator := r.evaluator.map closeSnapshot
      evaluatorRevision := if r.isPayment then r.evaluatorRevision + 1 else r.evaluatorRevision
      entitlementPublicationClaimToken := none
      nextAttemptAt := none }

end Deletion

/-! ## The state check -/

namespace Drain

theorem unpublished_iff {r : TaskRow} :
    unpublished r ↔ (r.status = .pending ∨ r.status = .inProgress) ∧
      r.entitlementToPublish.isNone ∧ r.entitlementPublicationClaimToken.isNone := by
  simp only [unpublished, Bool.and_eq_true, Bool.or_eq_true, beq_iff_eq, and_assoc]

section
variable (db : Database) (l : JobLease) (id : TaskId)
include db l id

theorem beginPublication_keeps (e : VerifiedProofBundle) (k : Uuid) (now : Timestamp) :
    (beginPublication db l id e k now).Keeps := by
  intro r hr hg
  simp only [beginPublication, Bool.and_eq_true, Bool.or_eq_true, beq_iff_eq,
    unpublished_iff] at hg
  rcases hg.2 with ⟨hs | hs, -⟩ | ⟨⟨hs, -⟩, -⟩
  · obtain ⟨-, hu, -, hc⟩ := (stateCheck_pending hs).1 hr
    exact (stateCheck_publishing rfl).2 ⟨rfl, hu, rfl, hc.imp_right (·.2)⟩
  · obtain ⟨-, hu, -, hc⟩ := (stateCheck_inProgress hs).1 hr
    exact (stateCheck_publishing rfl).2 ⟨rfl, hu, rfl, hc⟩
  · obtain ⟨-, hu, -, hc⟩ := (stateCheck_publishing hs).1 hr
    exact (stateCheck_publishing rfl).2 ⟨rfl, hu, rfl, hc⟩

theorem persistCompleted_keeps (k : Uuid)
    (now : Timestamp) : (persistCompleted db l id k now).Keeps := by
  intro r hr hg
  simp only [persistCompleted, Bool.and_eq_true, beq_iff_eq] at hg
  obtain ⟨hst, -, he, -⟩ := (stateCheck_publishing hg.1.1.2).1 hr
  exact (stateCheck_completed rfl).2 ⟨hst, rfl, rfl, rfl, he, rfl⟩

theorem persistExpired_keeps
    {reason : VerificationTerminalReason} (now : Timestamp) (hreason : reason.ofExpired) :
    (persistExpired db l id reason now).Keeps := by
  intro r _ _
  exact (stateCheck_expired rfl).2 ⟨rfl, rfl, hreason, rfl, rfl⟩

end

end Drain

namespace Deletion

theorem freeze_claims {r : TaskRow} (jobId : Uuid) (c : CreatorPubky) (l : LockId)
    (hc : r.claimsNull ∨ r.claimsSet) :
    ((freeze jobId c l).set r).claimsNull ∨
      r.invoiceAdmissionPhase = .invoicePending ∧ ((freeze jobId c l).set r).claimsSet := by
  by_cases hp : r.invoiceAdmissionPhase = .invoicePending
  · have hn : ((freeze jobId c l).set r).claimsNull = r.claimsNull := by
      simp [freeze, claimsNull, keepIfInvoicePending, hp]
    have hs : ((freeze jobId c l).set r).claimsSet = r.claimsSet := by
      simp [freeze, claimsSet, keepIfInvoicePending, hp]
    rw [hn, hs]
    exact hc.imp_right fun h => ⟨hp, h⟩
  · refine .inl ?_
    simp [freeze, claimsNull, keepIfInvoicePending, hp]

theorem freeze_claimsNull {r : TaskRow} (jobId : Uuid) (c : CreatorPubky) (l : LockId)
    (hc : r.claimsNull) : ((freeze jobId c l).set r).claimsNull := by
  simp only [claimsNull, Bool.and_eq_true, Option.isNone_iff_eq_none] at hc ⊢
  simp [freeze, keepIfInvoicePending, hc]

theorem freeze_keeps (jobId : Uuid) (c : CreatorPubky) (l : LockId) : (freeze jobId c l).Keeps := by
  intro r hr _
  cases hs : r.status with
  | pending =>
    obtain ⟨-, hu, he, hc⟩ := (stateCheck_pending hs).1 hr
    have hs' : ((freeze jobId c l).set r).status = .pending := by simp [freeze, open_, hs]
    refine (stateCheck_pending hs').2 ⟨by simp [freeze, open_, hs], hu, he, ?_⟩
    exact freeze_claims jobId c l (hc.imp_right (·.2))
  | inProgress =>
    obtain ⟨-, hu, he, hc⟩ := (stateCheck_inProgress hs).1 hr
    have hs' : ((freeze jobId c l).set r).status = .pending := by simp [freeze, open_, hs]
    refine (stateCheck_pending hs').2 ⟨by simp [freeze, open_, hs], hu, he, ?_⟩
    exact freeze_claims jobId c l hc
  | publishingEntitlement =>
    obtain ⟨hst, hu, he, hc⟩ := (stateCheck_publishing hs).1 hr
    have hs' : ((freeze jobId c l).set r).status = .publishingEntitlement := by
      simp [freeze, open_, hs]
    refine (stateCheck_publishing hs').2 ⟨by simpa [freeze, open_, hs], hu, he, ?_⟩
    exact (freeze_claims jobId c l hc).imp_right (·.2)
  | completed =>
    obtain ⟨hst, hco, hf, ht, he, hc⟩ := (stateCheck_completed hs).1 hr
    have hs' : ((freeze jobId c l).set r).status = .completed := by simp [freeze, open_, hs]
    exact (stateCheck_completed hs').2
      ⟨by simpa [freeze, open_, hs], hco, hf, ht, he, freeze_claimsNull jobId c l hc⟩
  | failed =>
    obtain ⟨hst, hco, hf, he, hc⟩ := (stateCheck_failed hs).1 hr
    have hs' : ((freeze jobId c l).set r).status = .failed := by simp [freeze, open_, hs]
    exact (stateCheck_failed hs').2
      ⟨by simpa [freeze, open_, hs], hco, hf, he, freeze_claimsNull jobId c l hc⟩
  | expired =>
    obtain ⟨hst, hco, hf, he, hc⟩ := (stateCheck_expired hs).1 hr
    have hs' : ((freeze jobId c l).set r).status = .expired := by simp [freeze, open_, hs]
    exact (stateCheck_expired hs').2
      ⟨by simpa [freeze, open_, hs], hco, hf, he, freeze_claimsNull jobId c l hc⟩

theorem expireUnresolved_keeps (db : Database) (jobId : Uuid) (now : Timestamp) :
    (expireUnresolved db jobId now).Keeps := by
  intro r hr hg
  simp only [expireUnresolved, open_, Bool.and_eq_true, Bool.or_eq_true, beq_iff_eq] at hg
  have he : r.entitlementToPublish.isNone := by
    rcases hg.2 with hs | hs
    · exact ((stateCheck_pending hs).1 hr).2.2.1
    · exact ((stateCheck_inProgress hs).1 hr).2.2.1
  exact (stateCheck_expired rfl).2 ⟨rfl, rfl, rfl, he, rfl⟩

end Deletion

end PubkyLocks
