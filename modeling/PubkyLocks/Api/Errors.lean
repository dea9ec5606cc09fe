/-
  The errors of the HTTP interface (`locks-server/src/api/errors.rs`), for the
  application errors of the modelled use cases.
-/
import PubkyLocks.Tasks.Record

namespace PubkyLocks

inductive ApiErrorCode where
  | invalidRequest
  | verificationTaskNotFound
  | guardedResourceNotFound
  | contentLockNotFound
  | invalidAccessCredential
  | expiredAccessCredential
  | creatorAuthorityUnavailable
  | contentLockPathConflict
  | contentLockDeletionInProgress
  | entitlementNotAuthorized
  | taskStateConflict
  | internalError
deriving DecidableEq, Repr

structure ApiError where
  code : ApiErrorCode
  message : String
deriving DecidableEq, Repr

/-- `From<ApplicationError> for ApiError`. -/
def ApiError.ofApplication : ApplicationError → ApiError
  | .missingRecord "verification_task" => ⟨.verificationTaskNotFound, "verification task not found"⟩
  | .missingRecord "guarded_resource" | .guardedResourceUnavailable =>
    ⟨.guardedResourceNotFound, "guarded resource not found"⟩
  | .missingRecord "content_lock" | .contentLockUnavailable =>
    ⟨.contentLockNotFound, "content lock not found"⟩
  | .invalidAccessCredential => ⟨.invalidAccessCredential, "invalid access credential"⟩
  | .expiredAccessCredential => ⟨.expiredAccessCredential, "expired access credential"⟩
  | .creatorAuthorityUnavailable | .creatorAuthoritySecret _ =>
    ⟨.creatorAuthorityUnavailable, "creator authority unavailable"⟩
  | .contentLockPathConflict _ => ⟨.contentLockPathConflict, "content lock path is already owned"⟩
  | .contentLockDeletionInProgress =>
    ⟨.contentLockDeletionInProgress, "content lock deletion is in progress"⟩
  | .contentLockPublicationInProgress =>
    ⟨.contentLockPathConflict, "content lock publication is in progress"⟩
  | .invalidGuardedResource _ => ⟨.invalidRequest, "invalid guarded resource"⟩
  | .entitlementNotFound | .entitlementNotSatisfied | .contentLockHashMismatch _ _ =>
    ⟨.entitlementNotAuthorized, "entitlement not authorized"⟩
  | .invalidVerificationTaskTransition _ _ | .invalidVerificationTaskState _
  | .invalidVerificationTaskFailureMessage | .verificationTaskConflict =>
    ⟨.taskStateConflict, "verification task state conflict"⟩
  | .corruptContentLockDeletionManifest _ => ⟨.internalError, "state_corrupt"⟩
  | .storage _ | .invalidFoldedAuthState _ | .invalidContentLockDeletionState _ | .verifier _
  | .contentLockCanonicalization _ | .duplicateRecord _ | .emptyContentLockCriteria
  | .duplicateContentLockCriterion _ | .duplicateVerificationResultCriterion _
  | .unknownVerificationResultCriterion _ | .missingRecord _ =>
    ⟨.internalError, "internal server error"⟩

end PubkyLocks
