/-
  Verification tasks at the service layer
  (`application/models/verification.rs`, `application/errors.rs`): statuses,
  terminal reasons, the task record and its lifecycle transitions.
-/
import PubkyLocks.Core.Verification

namespace PubkyLocks

open Checks

/-! ## Statuses and reasons -/

inductive VerificationTaskStatus where
  | pending
  | inProgress
  | publishingEntitlement
  | completed
  | failed
  | expired
deriving DecidableEq, Repr

/-- A completed, failed or expired task never changes its status again. -/
def VerificationTaskStatus.isTerminal : VerificationTaskStatus → Bool
  | completed | failed | expired => true
  | pending | inProgress | publishingEntitlement => false

inductive VerificationTerminalReason where
  | paymentRequestRejected
  | paymentRequestCanceled
  | proposalExpired
  | paymentDeadlineExpired
  | contentLockDeleted
  | graphConditionNotObservedByDeadline
  | verificationUnavailableByDeadline
  | invalidVerifierResponse
  | verificationConflict
deriving DecidableEq, Repr

namespace VerificationTerminalReason

def asStr : VerificationTerminalReason → String
  | paymentRequestRejected => "payment_request_rejected"
  | paymentRequestCanceled => "payment_request_canceled"
  | proposalExpired => "proposal_expired"
  | paymentDeadlineExpired => "payment_deadline_expired"
  | contentLockDeleted => "content_lock_deleted"
  | graphConditionNotObservedByDeadline => "graph_condition_not_observed_by_deadline"
  | verificationUnavailableByDeadline => "verification_unavailable_by_deadline"
  | invalidVerifierResponse => "invalid_verifier_response"
  | verificationConflict => "verification_conflict"

def ofExpired : VerificationTerminalReason → Bool
  | paymentRequestRejected | paymentRequestCanceled | proposalExpired | paymentDeadlineExpired
  | contentLockDeleted | graphConditionNotObservedByDeadline => true
  | verificationUnavailableByDeadline | invalidVerifierResponse | verificationConflict => false

/-- The reasons the table allows for a failed task without a message. -/
def ofFailed : VerificationTerminalReason → Bool
  | verificationUnavailableByDeadline | invalidVerifierResponse | verificationConflict => true
  | paymentRequestRejected | paymentRequestCanceled | proposalExpired | paymentDeadlineExpired
  | contentLockDeleted | graphConditionNotObservedByDeadline => false

end VerificationTerminalReason

/-- The error classes of the service layer that the modelled code returns. -/
inductive ApplicationError where
  | duplicateRecord (record : String)
  | contentLockPathConflict (guardedPath : String)
  | contentLockDeletionInProgress
  | contentLockPublicationInProgress
  | invalidContentLockDeletionState (message : String)
  | corruptContentLockDeletionManifest (message : String)
  | missingRecord (record : String)
  | storage (message : String)
  | verifier (message : String)
  | invalidVerificationTaskTransition (source target : VerificationTaskStatus)
  | invalidVerificationTaskState (message : String)
  | invalidVerificationTaskFailureMessage
  | verificationTaskConflict
  | invalidFoldedAuthState (message : String)
  | creatorAuthorityUnavailable
  | creatorAuthoritySecret (message : String)
  | emptyContentLockCriteria
  | duplicateContentLockCriterion (criterionId : String)
  | duplicateVerificationResultCriterion (criterionId : String)
  | unknownVerificationResultCriterion (criterionId : String)
  | entitlementNotFound
  | contentLockUnavailable
  | contentLockHashMismatch (expected actual : LockId)
  | entitlementNotSatisfied
  | contentLockCanonicalization (message : String)
  | guardedResourceUnavailable
  | invalidGuardedResource (message : String)
  | invalidAccessCredential
  | expiredAccessCredential
deriving DecidableEq, Repr

/-! ## Task records -/

/-- The service-layer state of a version-1 verification task. -/
structure VerificationTaskRecord where
  taskId : TaskId
  creator : CreatorPubky
  submittedProofBundle : SubmittedProofBundle
  status : VerificationTaskStatus
  submittedAt : Timestamp
  startedAt : Option Timestamp
  completedAt : Option Timestamp
  failureMessage : Option String
  terminalReason : Option VerificationTerminalReason
  entitlementToPublish : Option VerifiedProofBundle
deriving DecidableEq

namespace VerificationTaskRecord

/-- The field combinations of `VerificationTaskRecord::validate_state`. -/
def stateValid (t : VerificationTaskRecord) : Bool :=
  match t.status with
  | .pending =>
    t.startedAt.isNone && t.completedAt.isNone && t.failureMessage.isNone &&
      t.terminalReason.isNone && t.entitlementToPublish.isNone
  | .inProgress =>
    t.startedAt.isSome && t.completedAt.isNone && t.failureMessage.isNone &&
      t.terminalReason.isNone && t.entitlementToPublish.isNone
  | .publishingEntitlement =>
    t.startedAt.isSome && t.completedAt.isNone && t.failureMessage.isNone &&
      t.terminalReason.isNone && t.entitlementToPublish.isSome
  | .completed =>
    t.startedAt.isSome && t.completedAt.isSome && t.failureMessage.isNone &&
      t.terminalReason.isNone && t.entitlementToPublish.isSome
  | .failed =>
    t.startedAt.isSome && t.completedAt.isSome &&
      t.failureMessage.any (fun m => Text.trim m != "") &&
      t.terminalReason.isNone && t.entitlementToPublish.isNone
  | .expired =>
    t.startedAt.isSome && t.completedAt.isSome && t.failureMessage.isNone &&
      t.terminalReason.isSome && t.entitlementToPublish.isNone

def validateState (t : VerificationTaskRecord) : Except ApplicationError Unit :=
  if t.stateValid then .ok ()
  else .error (.invalidVerificationTaskState "record fields are inconsistent")

def transitionAllowed : VerificationTaskStatus → VerificationTaskStatus → Bool
  | .pending, .inProgress
  | .pending, .expired
  | .inProgress, .pending
  | .inProgress, .publishingEntitlement
  | .inProgress, .failed
  | .inProgress, .expired
  | .publishingEntitlement, .completed => true
  | _, _ => false

def validateTransition (t : VerificationTaskRecord) (next : VerificationTaskStatus) :
    Except ApplicationError Unit :=
  if transitionAllowed t.status next then .ok ()
  else .error (.invalidVerificationTaskTransition t.status next)

def validateFailureMessage (next : VerificationTaskStatus) (m : Option String) :
    Except ApplicationError (Option String) :=
  match next, m with
  | .failed, some m =>
    if Text.trim m != "" then .ok (some (Text.trim m))
    else .error .invalidVerificationTaskFailureMessage
  | .failed, none => .error .invalidVerificationTaskFailureMessage
  | _, none => .ok none
  | _, some _ => .error .invalidVerificationTaskFailureMessage

def transitionTo (t : VerificationTaskRecord) (next : VerificationTaskStatus) (at' : Timestamp)
    (failureMessage : Option String) : Except ApplicationError VerificationTaskRecord := do
  t.validateState
  t.validateTransition next
  let trimmed ← validateFailureMessage next failureMessage
  match next with
  | .pending =>
    pure { t with status := next, startedAt := none, completedAt := none, failureMessage := none,
                  terminalReason := none, entitlementToPublish := none }
  | .inProgress => pure { t with status := next, startedAt := some at' }
  | .publishingEntitlement =>
    throw (.invalidVerificationTaskState "publishing transitions require an entitlement payload")
  | .completed => pure { t with status := next, completedAt := some at' }
  | .failed => pure { t with status := next, completedAt := some at', failureMessage := trimmed }
  | .expired =>
    throw (.invalidVerificationTaskState "expired transitions require a terminal reason")

def beginEntitlementPublication (t : VerificationTaskRecord) (e : VerifiedProofBundle) :
    Except ApplicationError VerificationTaskRecord := do
  t.validateState
  t.validateTransition .publishingEntitlement
  pure { t with status := .publishingEntitlement, entitlementToPublish := some e }

def completeEntitlementPublication (t : VerificationTaskRecord) (at' : Timestamp) :
    Except ApplicationError VerificationTaskRecord :=
  t.transitionTo .completed at' none

def expire (t : VerificationTaskRecord) (reason : VerificationTerminalReason) (at' : Timestamp) :
    Except ApplicationError VerificationTaskRecord := do
  t.validateState
  t.validateTransition .expired
  if t.status = .pending ∨ t.status = .inProgress then
    pure { t with status := .expired, startedAt := some (t.startedAt.getD at'),
                  completedAt := some at', failureMessage := none, terminalReason := some reason }
  else
    throw (.invalidVerificationTaskState
      "only a pending or in-progress task can expire with a terminal reason")

variable {t t' : VerificationTaskRecord}

theorem stateValid_of_validateState {u : Unit} (h : t.validateState = .ok u) : t.stateValid := by
  unfold validateState at h
  split at h
  · assumption
  · cases h

theorem allowed_of_validateTransition {next : VerificationTaskStatus} {u : Unit}
    (h : t.validateTransition next = .ok u) : transitionAllowed t.status next := by
  unfold validateTransition at h
  split at h
  · assumption
  · cases h

theorem source_of_allowed {s next : VerificationTaskStatus} (h : transitionAllowed s next) :
    (next = .publishingEntitlement ∨ next = .failed → s = .inProgress) ∧
      (next = .completed → s = .publishingEntitlement) := by
  revert h
  cases s <;> cases next <;> decide

theorem beginEntitlementPublication_valid {e : VerifiedProofBundle}
    (h : t.beginEntitlementPublication e = .ok t') :
    t'.stateValid ∧ t'.status = .publishingEntitlement := by
  unfold beginEntitlementPublication at h
  obtain ⟨_, hv, h⟩ := bind_eq_ok.1 h
  obtain ⟨_, ha, h⟩ := bind_eq_ok.1 h
  have hv := stateValid_of_validateState hv
  have hs := (source_of_allowed (allowed_of_validateTransition ha)).1 (.inl rfl)
  cases h
  refine ⟨?_, rfl⟩
  simp only [stateValid, hs] at hv ⊢
  simp_all

theorem completeEntitlementPublication_valid {at' : Timestamp}
    (h : t.completeEntitlementPublication at' = .ok t') :
    t'.stateValid ∧ t'.status = .completed := by
  unfold completeEntitlementPublication transitionTo at h
  obtain ⟨_, hv, h⟩ := bind_eq_ok.1 h
  obtain ⟨_, ha, h⟩ := bind_eq_ok.1 h
  obtain ⟨-, -, h⟩ := bind_eq_ok.1 h
  have hv := stateValid_of_validateState hv
  have hs := (source_of_allowed (allowed_of_validateTransition ha)).2 rfl
  cases h
  refine ⟨?_, rfl⟩
  simp only [stateValid, hs] at hv ⊢
  simp_all

theorem validateFailureMessage_failed {m : Option String} {o : Option String}
    (h : validateFailureMessage .failed m = .ok o) : ∃ m', o = some m' ∧ Text.trim m' ≠ "" := by
  unfold validateFailureMessage at h
  split at h
  · rename_i m'
    split at h
    · rename_i hm
      cases h
      exact ⟨_, rfl, Text.trim_trim_ne_empty (by simpa using hm)⟩
    · cases h
  · cases h
  · contradiction
  · contradiction

theorem transitionTo_failed_valid {at' : Timestamp} {m : Option String}
    (h : t.transitionTo .failed at' m = .ok t') : t'.stateValid ∧ t'.status = .failed := by
  unfold transitionTo at h
  obtain ⟨_, hv, h⟩ := bind_eq_ok.1 h
  obtain ⟨_, ha, h⟩ := bind_eq_ok.1 h
  obtain ⟨o, hm, h⟩ := bind_eq_ok.1 h
  obtain ⟨m', rfl, hm'⟩ := validateFailureMessage_failed hm
  have hv := stateValid_of_validateState hv
  have hs := (source_of_allowed (allowed_of_validateTransition ha)).1 (.inr rfl)
  cases h
  refine ⟨?_, rfl⟩
  simp only [stateValid, hs] at hv ⊢
  simp_all

theorem expire_valid {reason : VerificationTerminalReason} {at' : Timestamp}
    (h : t.expire reason at' = .ok t') :
    t'.stateValid ∧ t'.status = .expired ∧ t'.terminalReason = some reason := by
  unfold expire at h
  obtain ⟨_, hv, h⟩ := bind_eq_ok.1 h
  obtain ⟨-, -, h⟩ := bind_eq_ok.1 h
  have hv := stateValid_of_validateState hv
  split at h
  · rename_i hs
    cases h
    refine ⟨?_, rfl, rfl⟩
    rcases hs with hs | hs <;> simp only [stateValid, hs] at hv ⊢ <;> simp_all
  · cases h

end VerificationTaskRecord

end PubkyLocks
