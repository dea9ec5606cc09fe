/-
  Content locks (`locks-core/src/lock_policy.rs`), version 1 and version 2:
  guarded resources, criteria, payment and graph policies, their validation,
  and the lock identity.

  Code outside the repository is a parameter `Externals`: the MIME parser of
  the `mime` crate, Unicode lower-casing, the canonical JSON serializer,
  BLAKE3 and the JSONB columns of Postgres.  A map of secondary resources
  carries the order of its keys, as the `BTreeMap` of the source does.
-/
import PubkyLocks.Core.Ids
import PubkyLocks.Lib.Checks
import PubkyLocks.Lib.Json
import PubkyLocks.Lib.Text

namespace PubkyLocks

open Checks (refuse onSome checkAll)

def CONTENT_LOCK_VERSION : ℕ := 1
def CONTENT_LOCK_V2_VERSION : ℕ := 2
def GUARDED_RESOURCE_CONTENT_PATH_PREFIX : String := "/priv/app.locks/content/"

/-! ## Data -/

structure GuardedResource where
  path : String
  hash : GuardedResourceHash
  contentType : String
  size : ℕ
deriving DecidableEq

/-- A secondary guarded resource; its path is its key in the map. -/
structure SecondaryGuardedResource where
  hash : GuardedResourceHash
  contentType : String
  size : ℕ
deriving DecidableEq

/-- `BTreeMap<String, SecondaryGuardedResource>`: entries in the order of
    their keys. -/
structure SecondaryResources where
  entries : List (String × SecondaryGuardedResource)
  sorted : (entries.map Prod.fst).Pairwise (· < ·)
deriving DecidableEq

namespace SecondaryResources

def empty : SecondaryResources := ⟨[], .nil⟩

def get? (m : SecondaryResources) (path : String) : Option SecondaryGuardedResource :=
  (m.entries.find? fun e => e.1 = path).map Prod.snd

def containsKey (m : SecondaryResources) (path : String) : Bool := (m.get? path).isSome

end SecondaryResources

inductive VerifierType where
  | devStatic
  | paykitPayment
deriving DecidableEq, Repr

/-- A criterion of a version-1 lock. -/
structure Criterion where
  criterionId : String
  verifierType : VerifierType
  params : Json
deriving DecidableEq

inductive LockLogic where
  | all (criteria : List String)
  | any (criteria : List String)
deriving DecidableEq, Repr

def LockLogic.criteria : LockLogic → List String
  | all ids => ids
  | any ids => ids

structure AccessPolicy where
  requestedCredentialTtlSeconds : ℕ
deriving DecidableEq, Repr

structure LockServerConfig where
  override : Option LockServerPubky
deriving DecidableEq, Repr

structure ContentLock where
  version : ℕ
  creator : CreatorPubky
  primaryResource : Option GuardedResource
  secondaryResources : SecondaryResources
  criteria : List Criterion
  lockLogic : LockLogic
  accessPolicy : AccessPolicy
  lockServer : LockServerConfig
  createdAt : Timestamp
deriving DecidableEq

structure PaymentPolicyV2 where
  recipientPubky : CreatorPubky
  amount : String
  asset : String
  minimumConfirmations : ℕ
deriving DecidableEq, Repr

inductive GraphOperatorV2 where
  | and
  | or
deriving DecidableEq, Repr

inductive GraphParticipantV2 where
  | creator
  | reader
deriving DecidableEq, Repr

inductive GraphPredicateV2 where
  | follows (follower followed : GraphParticipantV2)
  | tagged (tagger tagged : GraphParticipantV2) (label : String)
deriving DecidableEq, Repr

structure GraphPolicyV2 where
  predicates : List GraphPredicateV2
  operator : Option GraphOperatorV2
deriving DecidableEq, Repr

structure ContentLockV2 where
  version : ℕ
  creator : CreatorPubky
  primaryResource : Option GuardedResource
  secondaryResources : SecondaryResources
  payment : Option PaymentPolicyV2
  graph : Option GraphPolicyV2
  verificationWindowSeconds : ℕ
  accessPolicy : AccessPolicy
  lockServer : LockServerConfig
  createdAt : Timestamp
deriving DecidableEq

inductive ContentLockPayload where
  | v1 (lock : ContentLock)
  | v2 (lock : ContentLockV2)
deriving DecidableEq

/-- Third-party code the lock identity and the validation rest on. -/
structure Externals where
  /-- `str::parse::<mime::Mime>` succeeds. -/
  isMime : String → Bool
  /-- `str::to_lowercase`. -/
  toLowercase : String → String
  /-- `serde_json_canonicalizer::to_vec` on a version-1 lock. -/
  canonicalV1 : ContentLock → Except String (List UInt8)
  /-- `serde_json_canonicalizer::to_vec` on a version-2 lock. -/
  canonicalV2 : ContentLockV2 → Except String (List UInt8)
  /-- `blake3::hash`. -/
  blake3 : List UInt8 → LockHash
  /-- A `serde_json::Value` as a JSONB column gives it back: a number is a `numeric`
      there, so that `1e16` comes back as an integer. -/
  jsonb : Json → Json

/-- An instance that accepts every MIME type, changes no text or column and gives
    every lock the same hash. -/
def Externals.constant (hash : LockHash) : Externals where
  isMime _ := true
  toLowercase text := text
  canonicalV1 _ := .ok []
  canonicalV2 _ := .ok []
  blake3 _ := hash
  jsonb v := v

def staticLock (creator : CreatorPubky) : ContentLock where
  version := CONTENT_LOCK_VERSION
  creator := creator
  primaryResource := some ⟨"/priv/app.locks/content/post.json", .replicate 1, "application/json", 5⟩
  secondaryResources := .empty
  criteria := [⟨"criterion-1", .devStatic, .null⟩]
  lockLogic := .all ["criterion-1"]
  accessPolicy := ⟨900⟩
  lockServer := ⟨none⟩
  createdAt := 0

/-- A version-2 lock of the creator with the given policies and a window of ten
    minutes. -/
def policyLock (payment : Option PaymentPolicyV2) (graph : Option GraphPolicyV2) :
    ContentLockV2 where
  version := CONTENT_LOCK_V2_VERSION
  creator := ⟨"creator"⟩
  primaryResource := some ⟨"/priv/app.locks/content/post.json", .replicate 1, "application/json", 5⟩
  secondaryResources := .empty
  payment := payment
  graph := graph
  verificationWindowSeconds := 600
  accessPolicy := ⟨900⟩
  lockServer := ⟨none⟩
  createdAt := 0

def paymentLock : ContentLockV2 := policyLock (some ⟨⟨"creator"⟩, "1000", "BTC", 1⟩) none

def graphLock : ContentLockV2 := policyLock none (some ⟨[.follows .reader .creator], none⟩)

/-! ## Errors -/

inductive GuardedResourceValidationError where
  | invalidPath
  | invalidContentType
  | zeroSize
deriving DecidableEq, Repr

inductive ContentLockValidationError where
  | emptyResourceSet
  | invalidPrimaryResource (reason : GuardedResourceValidationError)
  | invalidSecondaryResource (path : String) (reason : GuardedResourceValidationError)
  | duplicatePrimarySecondaryPath (path : String)
  | totalResourceSizeOverflow
deriving DecidableEq, Repr

inductive ContentLockV2ValidationError where
  | unsupportedVersion (version : ℕ)
  | missingPolicy
  | invalidVerificationWindow
  | invalidResourceSet (reason : ContentLockValidationError)
  | paymentRecipientMustMatchCreator
  | invalidPaymentAmount
  | invalidPaymentAsset
  | invalidMinimumConfirmations
  | invalidGraphCardinality
  | invalidGraphOperatorPresence
  | duplicateGraphPredicate
  | graphRolesMustDiffer
  | invalidGraphLabel
deriving DecidableEq, Repr

def GuardedResourceValidationError.message : GuardedResourceValidationError → String
  | invalidPath => "guarded resource path must be under /priv/app.locks/content/"
  | invalidContentType => "guarded resource content_type must be a valid MIME type"
  | zeroSize => "guarded resource size must be greater than zero"

/-- The `Display` text of a resource-set error. -/
def ContentLockValidationError.message : ContentLockValidationError → String
  | emptyResourceSet => "content lock must protect at least one guarded resource"
  | invalidPrimaryResource r => "invalid primary guarded resource: " ++ r.message
  | invalidSecondaryResource p r => "invalid secondary guarded resource at " ++ p ++ ": " ++ r.message
  | duplicatePrimarySecondaryPath p => "primary resource path duplicates secondary resource path: " ++ p
  | totalResourceSizeOverflow => "content lock total resource size overflowed u64"

/-! ## Guarded resources -/

section
variable (E : Externals)

def GuardedResource.new (path : String) (hash : GuardedResourceHash) (contentType : String)
    (size : ℕ) : Except GuardedResourceValidationError GuardedResource :=
  if !Text.startsWith path GUARDED_RESOURCE_CONTENT_PATH_PREFIX ||
      path == GUARDED_RESOURCE_CONTENT_PATH_PREFIX || Text.contains path ".." ||
      Text.contains path "//" || Text.contains path "://" then .error .invalidPath
  else if !E.isMime contentType then .error .invalidContentType
  else if size == 0 then .error .zeroSize
  else .ok ⟨path, hash, contentType, size⟩

def checkedAddU64 (a b : ℕ) : Option ℕ := if a + b < 2 ^ 64 then some (a + b) else none

def addSizes (total : ℕ) : List (String × SecondaryGuardedResource) →
    Except ContentLockValidationError ℕ
  | [] => .ok total
  | e :: es => match checkedAddU64 total e.2.size with
    | none => .error .totalResourceSizeOverflow
    | some t => addSizes t es

def validateSecondaries : List (String × SecondaryGuardedResource) →
    Except ContentLockValidationError Unit
  | [] => .ok ()
  | e :: es => match GuardedResource.new E e.1 e.2.hash e.2.contentType e.2.size with
    | .error r => .error (.invalidSecondaryResource e.1 r)
    | .ok _ => validateSecondaries es

namespace ContentLock
variable (lock : ContentLock)

def resourceCount : ℕ := lock.primaryResource.isSome.toNat + lock.secondaryResources.entries.length

def totalResourceSize : Except ContentLockValidationError ℕ :=
  match lock.primaryResource with
  | none => addSizes 0 lock.secondaryResources.entries
  | some p => match checkedAddU64 0 p.size with
    | none => .error .totalResourceSizeOverflow
    | some t => addSizes t lock.secondaryResources.entries

def secondaryForPath (path : String) : Option GuardedResource :=
  (lock.secondaryResources.get? path).map fun r => ⟨path, r.hash, r.contentType, r.size⟩

def resourceForPath (path : String) : Option GuardedResource :=
  match lock.primaryResource with
  | some p => if p.path = path then some p else lock.secondaryForPath path
  | none => lock.secondaryForPath path

/-- The check of the primary resource in `validate_resource_set`. -/
def validatePrimary : Except ContentLockValidationError Unit :=
  match lock.primaryResource with
  | none => .ok ()
  | some p => match GuardedResource.new E p.path p.hash p.contentType p.size with
    | .error r => .error (.invalidPrimaryResource r)
    | .ok _ =>
      if lock.secondaryResources.containsKey p.path then
        .error (.duplicatePrimarySecondaryPath p.path)
      else .ok ()

def validateResourceSet : Except ContentLockValidationError Unit := do
  refuse (lock.resourceCount = 0) .emptyResourceSet
  lock.validatePrimary E
  validateSecondaries E lock.secondaryResources.entries
  let _ ← lock.totalResourceSize

def lockHash : Except String LockHash := (E.canonicalV1 lock).map E.blake3

/-- The lock as a JSONB column gives it back. -/
def readBack : ContentLock :=
  { lock with criteria := lock.criteria.map fun c => { c with params := E.jsonb c.params } }

def lockId : Except String LockId := (lock.lockHash E).map LockId.fromHash

end ContentLock

/-! ## Version-2 policies -/

def PaymentPolicyV2.validate (p : PaymentPolicyV2) (creator : CreatorPubky) :
    Except ContentLockV2ValidationError Unit :=
  if p.recipientPubky ≠ creator then .error .paymentRecipientMustMatchCreator
  else if p.amount.toList.isEmpty || !p.amount.toList.all Text.isAsciiDigit ||
      (match Text.parseU64 p.amount with | none => true | some n => n == 0) then
    .error .invalidPaymentAmount
  else if p.asset ≠ "BTC" then .error .invalidPaymentAsset
  else if p.minimumConfirmations > 6 then .error .invalidMinimumConfirmations
  else .ok ()

def validGraphLabel (label : String) : Bool :=
  let n := label.toList.length
  1 ≤ n && n ≤ 20 && Text.trim label == label && E.toLowercase label == label &&
    !label.toList.any fun c => Text.isWhitespace c || c == ',' || c == ':'

def GraphPredicateV2.validate : GraphPredicateV2 → Except ContentLockV2ValidationError Unit
  | follows a b => if a = b then .error .graphRolesMustDiffer else .ok ()
  | tagged a b label =>
    if a = b then .error .graphRolesMustDiffer
    else if !validGraphLabel E label then .error .invalidGraphLabel
    else .ok ()

def GraphPolicyV2.validate (g : GraphPolicyV2) : Except ContentLockV2ValidationError Unit := do
  refuse (!(1 ≤ g.predicates.length && g.predicates.length ≤ 8)) .invalidGraphCardinality
  refuse ((g.predicates.length == 1) != g.operator.isNone) .invalidGraphOperatorPresence
  refuse (!decide g.predicates.Nodup) .duplicateGraphPredicate
  checkAll (GraphPredicateV2.validate E) g.predicates

namespace ContentLockV2
variable (lock : ContentLockV2)

/-- The check of the primary resource in `validate_v2_resource_set`. -/
def validatePrimary : Except ContentLockValidationError Unit :=
  match lock.primaryResource with
  | none => .ok ()
  | some p => match GuardedResource.new E p.path p.hash p.contentType p.size with
    | .error r => .error (.invalidPrimaryResource r)
    | .ok _ =>
      if lock.secondaryResources.containsKey p.path then
        .error (.duplicatePrimarySecondaryPath p.path)
      else .ok ()

/-- The loop of `validate_v2_resource_set`: each secondary resource is checked
    and its size added before the next one is looked at. -/
def validateAndAdd (total : ℕ) : List (String × SecondaryGuardedResource) →
    Except ContentLockValidationError Unit
  | [] => .ok ()
  | e :: es => match GuardedResource.new E e.1 e.2.hash e.2.contentType e.2.size with
    | .error r => .error (.invalidSecondaryResource e.1 r)
    | .ok _ => match checkedAddU64 total e.2.size with
      | none => .error .totalResourceSizeOverflow
      | some t => validateAndAdd t es

def validateResourceSet : Except ContentLockValidationError Unit := do
  refuse (lock.primaryResource.isNone && lock.secondaryResources.entries.isEmpty) .emptyResourceSet
  lock.validatePrimary E
  validateAndAdd E ((lock.primaryResource.map (·.size)).getD 0) lock.secondaryResources.entries

def hasGraph : Bool := lock.graph.isSome

def validate : Except ContentLockV2ValidationError Unit := do
  refuse (lock.version ≠ CONTENT_LOCK_V2_VERSION) (.unsupportedVersion lock.version)
  refuse (lock.payment.isNone && lock.graph.isNone) .missingPolicy
  refuse (!(60 ≤ lock.verificationWindowSeconds && lock.verificationWindowSeconds ≤ 604800))
    .invalidVerificationWindow
  (lock.validateResourceSet E).mapError .invalidResourceSet
  onSome lock.payment fun p => p.validate lock.creator
  onSome lock.graph fun g => g.validate E

/-- `ContentLockV2::lock_hash`: an invalid lock has no canonical form. -/
def lockHash : Except String LockHash :=
  match lock.validate E with
  | .error _ => .error "invalid content lock v2"
  | .ok _ => (E.canonicalV2 lock).map E.blake3

def lockId : Except String LockId := (lock.lockHash E).map LockId.fromHash

end ContentLockV2

def ContentLockPayload.creator : ContentLockPayload → CreatorPubky
  | v1 lock => lock.creator
  | v2 lock => lock.creator

def ContentLockPayload.lockId : ContentLockPayload → Except String LockId
  | v1 lock => lock.lockId E
  | v2 lock => lock.lockId E

end

end PubkyLocks
