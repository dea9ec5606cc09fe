/-
  Proof bundles (`locks-core/src/verification.rs`): what viewers submit, what
  Lock Servers verify and publish, the version pairing of locks and
  submissions, and the validation of version-2 entitlements.
-/
import PubkyLocks.Core.LockPolicy

namespace PubkyLocks

open Checks (refuse onSome checkAll)

def SUBMITTED_PROOF_BUNDLE_VERSION : ℕ := 1
def SUBMITTED_PROOF_BUNDLE_V2_VERSION : ℕ := 2
def VERIFIED_PROOF_BUNDLE_VERSION : ℕ := 1
def VERIFIED_PROOF_BUNDLE_V2_VERSION : ℕ := 2

/-! ## Submissions -/

/-- A proof for one criterion of a version-1 lock. -/
structure Proof where
  criterionId : String
  verifierType : VerifierType
  payload : Json
deriving DecidableEq

/-- A version-1 submission. -/
structure SubmittedProofBundle where
  version : ℕ
  bundleId : BundleId
  pubkyLockResource : PubkyLockResource
  readerPublicKey : Option CreatorPubky
  clientReference : Option ClientReference
  proofs : List Proof
deriving DecidableEq

/-- The bundle as a JSONB column gives it back. -/
def SubmittedProofBundle.readBack (E : Externals) (b : SubmittedProofBundle) :
    SubmittedProofBundle :=
  { b with proofs := b.proofs.map fun p => { p with payload := E.jsonb p.payload } }

/-- A version-2 submission. -/
structure SubmittedProofBundleV2 where
  version : ℕ
  bundleId : BundleId
  pubkyLockResource : PubkyLockResource
  readerPubky : Option CreatorPubky
deriving DecidableEq

/-- A submission of either version. -/
inductive SubmittedProofBundlePayload where
  | v1 (bundle : SubmittedProofBundle)
  | v2 (bundle : SubmittedProofBundleV2)
deriving DecidableEq

/-- The field `pubky_lock_resource`, which both versions have. -/
def SubmittedProofBundlePayload.pubkyLockResource : SubmittedProofBundlePayload → PubkyLockResource
  | v1 b => b.pubkyLockResource
  | v2 b => b.pubkyLockResource

def SubmittedProofBundlePayload.bundleId : SubmittedProofBundlePayload → BundleId
  | v1 b => b.bundleId
  | v2 b => b.bundleId

inductive VersionPairValidationError where
  | crossVersion
  | unsupportedVersion
  | invalidContentLock
  | paymentReaderRequired
  | graphReaderForbidden
  | resourceCreatorMismatch
  | resourceLockIdMismatch
deriving DecidableEq, Repr

def validateLockResource (creator : CreatorPubky) (lockId : LockId) (r : PubkyLockResource) :
    Except VersionPairValidationError Unit :=
  if r.creator ≠ creator then .error .resourceCreatorMismatch
  else if r.lockId ≠ lockId then .error .resourceLockIdMismatch
  else .ok ()

def validateContentLockSubmission (E : Externals) :
    ContentLockPayload → SubmittedProofBundlePayload → Except VersionPairValidationError Unit
  | .v1 lock, .v1 bundle => do
    refuse (lock.version ≠ CONTENT_LOCK_VERSION || bundle.version ≠ SUBMITTED_PROOF_BUNDLE_VERSION)
      .unsupportedVersion
    let lockId ← (lock.lockId E).mapError fun _ => .invalidContentLock
    validateLockResource lock.creator lockId bundle.pubkyLockResource
  | .v2 lock, .v2 bundle => do
    (lock.validate E).mapError fun _ => .invalidContentLock
    refuse (lock.version ≠ CONTENT_LOCK_V2_VERSION ||
        bundle.version ≠ SUBMITTED_PROOF_BUNDLE_V2_VERSION)
      .unsupportedVersion
    let lockId ← (lock.lockId E).mapError fun _ => .invalidContentLock
    validateLockResource lock.creator lockId bundle.pubkyLockResource
    match lock.hasGraph, bundle.readerPubky.isSome with
    | false, true | true, false => pure ()
    | false, false => throw .paymentReaderRequired
    | true, true => throw .graphReaderForbidden
  | _, _ => .error .crossVersion

theorem resource_of_submission {E : Externals} {lock : ContentLockV2}
    {submitted : SubmittedProofBundleV2}
    (h : validateContentLockSubmission E (.v2 lock) (.v2 submitted) = .ok ()) :
    submitted.pubkyLockResource.creator = lock.creator ∧
      lock.lockId E = .ok submitted.pubkyLockResource.lockId := by
  simp only [validateContentLockSubmission, Checks.bind_eq_ok, Checks.mapError_eq_ok] at h
  obtain ⟨_, -, _, -, l, hl, _, hres, -⟩ := h
  rw [validateLockResource] at hres
  split at hres
  · cases hres
  · rename_i hc
    split at hres
    · cases hres
    · rename_i hid
      exact ⟨not_not.1 hc, by rw [not_not.1 hid]; exact hl⟩

/-! ## Entitlements -/

structure CriterionVerificationResult where
  criterionId : String
  satisfied : Bool
  verifiedAt : Timestamp
  verifiedBy : LockServerPubky
  verifierType : VerifierType
deriving DecidableEq

/-- The criteria results of a version-1 entitlement. -/
structure VerificationResult where
  criteria : List CriterionVerificationResult
deriving DecidableEq

inductive EntitlementLifetime where
  | unbounded
deriving DecidableEq, Repr

/-- A version-1 entitlement. -/
structure VerifiedProofBundle where
  version : ℕ
  bundleId : BundleId
  pubkyLockResource : PubkyLockResource
  verificationResult : VerificationResult
  entitlementLifetime : EntitlementLifetime
deriving DecidableEq

inductive SatisfiedByV2 where
  | payment
  | graph
  | zeroConfGraph
deriving DecidableEq, Repr

/-- A version-2 entitlement. -/
structure VerifiedProofBundleV2 where
  version : ℕ
  creator : CreatorPubky
  reader : CreatorPubky
  bundleId : BundleId
  pubkyLockResource : PubkyLockResource
  verifiedAt : Timestamp
  satisfiedBy : List SatisfiedByV2
deriving DecidableEq

/-- An entitlement of either version. -/
inductive VerifiedProofBundlePayload where
  | v1 (bundle : VerifiedProofBundle)
  | v2 (bundle : VerifiedProofBundleV2)
deriving DecidableEq

inductive VerifiedProofBundleV2ValidationError where
  | unsupportedVersion (version : ℕ)
  | creatorMismatch
  | lockIdMismatch
  | invalidContentLock
  | invalidSatisfiedBy
deriving DecidableEq, Repr

/-- The `Display` text of an entitlement error. -/
def VerifiedProofBundleV2ValidationError.message : VerifiedProofBundleV2ValidationError → String
  | unsupportedVersion v => "unsupported verified proof bundle v2 version: " ++ toString v
  | creatorMismatch => "verified bundle creator must match pubky_lock_resource creator"
  | lockIdMismatch =>
    "verified bundle pubky_lock_resource Lock ID must match content lock identity"
  | invalidContentLock => "invalid v2 content lock"
  | invalidSatisfiedBy => "satisfied_by must be a canonical non-empty approved path array"

def VerifiedProofBundleV2.validate (b : VerifiedProofBundleV2) :
    Except VerifiedProofBundleV2ValidationError Unit :=
  if b.version ≠ VERIFIED_PROOF_BUNDLE_V2_VERSION then .error (.unsupportedVersion b.version)
  else if b.pubkyLockResource.creator ≠ b.creator then .error .creatorMismatch
  else match b.satisfiedBy with
    | [.payment] | [.graph] | [.zeroConfGraph] | [.payment, .zeroConfGraph] => .ok ()
    | _ => .error .invalidSatisfiedBy

/-- The `satisfied_by` paths of `validate_verified_content_lock_publication`
    for the policies of a lock. -/
def validPaths (payment graph : Bool) (satisfiedBy : List SatisfiedByV2) : Bool :=
  match payment, graph with
  | true, false => satisfiedBy == [.payment]
  | false, true => satisfiedBy == [.graph]
  | true, true =>
    satisfiedBy == [.payment] || satisfiedBy == [.zeroConfGraph] ||
      satisfiedBy == [.payment, .zeroConfGraph]
  | false, false => false

def validateVerifiedContentLockPublication (E : Externals) (lock : ContentLockV2)
    (verified : VerifiedProofBundleV2) : Except VerifiedProofBundleV2ValidationError Unit := do
  (lock.validate E).mapError fun _ => .invalidContentLock
  verified.validate
  refuse (verified.creator ≠ lock.creator || verified.pubkyLockResource.creator ≠ lock.creator)
    .creatorMismatch
  let lockId ← (lock.lockId E).mapError fun _ => .invalidContentLock
  refuse (verified.pubkyLockResource.lockId ≠ lockId) .lockIdMismatch
  refuse (!validPaths lock.payment.isSome lock.graph.isSome verified.satisfiedBy)
    .invalidSatisfiedBy

end PubkyLocks
