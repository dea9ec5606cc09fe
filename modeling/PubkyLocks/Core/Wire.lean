/-
  The stored form of content locks: the decoders of `ContentLock`,
  `ContentLockV2` and `ContentLockPayload` (`locks-core/src/lock_policy.rs`).

  The decoder of both versions reads a value as version 1, then as version 2,
  and then compares the version number.  The decoder of version 1 alone does not
  look at the number.  The parsers of third-party code (public keys, RFC 3339,
  Crockford base32) are the parameter `Codec`.
-/
import PubkyLocks.Core.LockPolicy
import PubkyLocks.Lib.Decode

namespace PubkyLocks

open Decode

/-- The parsers of third-party code. -/
structure Codec where
  /-- `pubky::PublicKey::from_str`, rendered again. -/
  parsePubky : String → Option String
  /-- `time::serde::rfc3339`. -/
  parseRfc3339 : String → Option Timestamp
  /-- `base32::decode` with the Crockford alphabet. -/
  crockfordDecode : String → Option (List UInt8)

/-- Parsers that read every text. -/
def Codec.lenient : Codec where
  parsePubky := some
  parseRfc3339 _ := some 0
  crockfordDecode _ := some (.replicate 32 1)

section
variable (C : Codec)

def decodeCreatorPubky : Json → Option CreatorPubky := parsed fun t => (C.parsePubky t).map .mk

def decodeLockServerPubky : Json → Option LockServerPubky :=
  parsed fun t => (C.parsePubky t).map .mk

def decodeGuardedResourceHash : Json → Option GuardedResourceHash :=
  parsed fun t => (C.crockfordDecode t).bind fun bytes =>
    if h : bytes.length = 32 then some ⟨bytes, h⟩ else none

def decodeU64 : Json → Option ℕ := uint (2 ^ 64)

/-! ## Resources -/

def guardedResourceFields : List String := ["path", "hash", "content_type", "size"]

def decodeGuardedResource (j : Json) : Option GuardedResource :=
  if closed guardedResourceFields j then do
    let field (name : String) := slot guardedResourceFields name j
    let path ← required string (field "path")
    let hash ← required (decodeGuardedResourceHash C) (field "hash")
    let contentType ← required string (field "content_type")
    let size ← required decodeU64 (field "size")
    pure ⟨path, hash, contentType, size⟩
  else none

def secondaryGuardedResourceFields : List String := ["hash", "content_type", "size"]

def decodeSecondaryGuardedResource (j : Json) : Option SecondaryGuardedResource :=
  if closed secondaryGuardedResourceFields j then do
    let field (name : String) := slot secondaryGuardedResourceFields name j
    let hash ← required (decodeGuardedResourceHash C) (field "hash")
    let contentType ← required string (field "content_type")
    let size ← required decodeU64 (field "size")
    pure ⟨hash, contentType, size⟩
  else none

/-- The map of secondary resources; a `serde_json` object lists its fields in
    the order of their names. -/
def decodeSecondaryResources (j : Json) : Option SecondaryResources := do
  let es ← entries (decodeSecondaryGuardedResource C) j
  if h : (es.map Prod.fst).Pairwise (· < ·) then some ⟨es, h⟩ else none

/-! ## Policies -/

def decodeVerifierType : Json → Option VerifierType :=
  variant [("dev-static", .devStatic), ("paykit-payment", .paykitPayment)]

def criterionFields : List String := ["criterion_id", "verifier_type", "params"]

def decodeCriterion (j : Json) : Option Criterion :=
  if closed criterionFields j then do
    let field (name : String) := slot criterionFields name j
    let criterionId ← required string (field "criterion_id")
    let verifierType ← required decodeVerifierType (field "verifier_type")
    let params ← required some (field "params")
    pure ⟨criterionId, verifierType, params⟩
  else none

def decodeLockLogic (j : Json) : Option LockLogic := do
  let (name, rest) ← tagged "type" j
  if closed ["criteria"] rest then do
    let criteria ← required (list string) (slot ["criteria"] "criteria" rest)
    [("all", LockLogic.all criteria), ("any", LockLogic.any criteria)].lookup name
  else none

def decodeAccessPolicy (j : Json) : Option AccessPolicy :=
  let fields := ["requested_credential_ttl_seconds"]
  if closed fields j then do
    let seconds ← required decodeU64 (slot fields "requested_credential_ttl_seconds" j)
    pure ⟨seconds⟩
  else none

def decodeLockServerConfig (j : Json) : Option LockServerConfig :=
  let fields := ["override"]
  if closed fields j then do
    let override ← optional (decodeLockServerPubky C) (slot fields "override" j)
    pure ⟨override⟩
  else none

def paymentPolicyFields : List String :=
  ["recipient_pubky", "amount", "asset", "minimum_confirmations"]

/-- `PaymentPolicyV2::deserialize`. -/
def decodePaymentPolicyV2 (j : Json) : Option PaymentPolicyV2 :=
  if closed paymentPolicyFields j then do
    let field (name : String) := slot paymentPolicyFields name j
    let recipientPubky ← required (decodeCreatorPubky C) (field "recipient_pubky")
    let amount ← required string (field "amount")
    let asset ← required string (field "asset")
    let minimumConfirmations ← required (uint (2 ^ 8)) (field "minimum_confirmations")
    pure ⟨recipientPubky, amount, asset, minimumConfirmations⟩
  else none

/-- `GraphParticipantV2::deserialize`. -/
def decodeGraphParticipantV2 : Json → Option GraphParticipantV2 :=
  variant [("creator", .creator), ("reader", .reader)]

/-- `GraphPredicateV2::deserialize`. -/
def decodeGraphPredicateV2 (j : Json) : Option GraphPredicateV2 := do
  let (name, rest) ← tagged "type" j
  match name with
  | "follows" =>
    let fields := ["follower", "followed"]
    if closed fields rest then do
      let follower ← required decodeGraphParticipantV2 (slot fields "follower" rest)
      let followed ← required decodeGraphParticipantV2 (slot fields "followed" rest)
      pure (.follows follower followed)
    else none
  | "tagged" =>
    let fields := ["tagger", "tagged", "label"]
    if closed fields rest then do
      let tagger ← required decodeGraphParticipantV2 (slot fields "tagger" rest)
      let target ← required decodeGraphParticipantV2 (slot fields "tagged" rest)
      let label ← required string (slot fields "label" rest)
      pure (.tagged tagger target label)
    else none
  | _ => none

/-- `GraphPolicyV2::deserialize`. -/
def decodeGraphPolicyV2 (j : Json) : Option GraphPolicyV2 :=
  let fields := ["predicates", "operator"]
  if closed fields j then do
    let predicates ← required (list decodeGraphPredicateV2) (slot fields "predicates" j)
    let operator ← optional (variant [("and", GraphOperatorV2.and), ("or", .or)])
      (slot fields "operator" j)
    pure ⟨predicates, operator⟩
  else none

/-! ## Locks -/

def contentLockFields : List String :=
  ["version", "creator", "primary_resource", "secondary_resources", "criteria", "lock_logic",
    "access_policy", "lock_server", "created_at"]

def decodeContentLock (j : Json) : Option ContentLock :=
  if closed contentLockFields j then do
    let field (name : String) := slot contentLockFields name j
    let version ← required (uint (2 ^ 16)) (field "version")
    let creator ← required (decodeCreatorPubky C) (field "creator")
    let primaryResource ← optional (decodeGuardedResource C) (field "primary_resource")
    let secondaryResources ←
      defaulted (decodeSecondaryResources C) .empty (field "secondary_resources")
    let criteria ← required (list decodeCriterion) (field "criteria")
    let lockLogic ← required decodeLockLogic (field "lock_logic")
    let accessPolicy ← required decodeAccessPolicy (field "access_policy")
    let lockServer ← required (decodeLockServerConfig C) (field "lock_server")
    let createdAt ← required (parsed C.parseRfc3339) (field "created_at")
    pure { version, creator, primaryResource, secondaryResources, criteria, lockLogic,
           accessPolicy, lockServer, createdAt }
  else none

def contentLockV2Fields : List String :=
  ["version", "creator", "primary_resource", "secondary_resources", "payment", "graph",
    "verification_window_seconds", "access_policy", "lock_server", "created_at"]

/-- `ContentLockV2Wire::deserialize`. -/
def decodeContentLockV2Wire (j : Json) : Option ContentLockV2 :=
  if closed contentLockV2Fields j then do
    let field (name : String) := slot contentLockV2Fields name j
    let version ← required (uint (2 ^ 16)) (field "version")
    let creator ← required (decodeCreatorPubky C) (field "creator")
    let primaryResource ← optional (decodeGuardedResource C) (field "primary_resource")
    let secondaryResources ←
      defaulted (decodeSecondaryResources C) .empty (field "secondary_resources")
    let payment ← optional (decodePaymentPolicyV2 C) (field "payment")
    let graph ← optional decodeGraphPolicyV2 (field "graph")
    let verificationWindowSeconds ← required decodeU64 (field "verification_window_seconds")
    let accessPolicy ← required decodeAccessPolicy (field "access_policy")
    let lockServer ← required (decodeLockServerConfig C) (field "lock_server")
    let createdAt ← required (parsed C.parseRfc3339) (field "created_at")
    pure { version, creator, primaryResource, secondaryResources, payment, graph,
           verificationWindowSeconds, accessPolicy, lockServer, createdAt }
  else none

variable (E : Externals)

/-- `ContentLockV2::deserialize`: the wire form is validated. -/
def decodeContentLockV2 (j : Json) : Option ContentLockV2 :=
  (decodeContentLockV2Wire C j).bind fun lock => if (lock.validate E).isOk then some lock else none

def decodeContentLockPayload (j : Json) : Option ContentLockPayload :=
  match decodeContentLock C j with
  | some lock => if lock.version = CONTENT_LOCK_VERSION then some (.v1 lock) else none
  | none => match decodeContentLockV2 C E j with
    | some lock => if lock.version = CONTENT_LOCK_V2_VERSION then some (.v2 lock) else none
    | none => none

end

/-! ## The two decoders -/

variable {C : Codec} {E : Externals} {j : Json}

theorem decodeContentLockPayload_v1_iff {lock : ContentLock} :
    decodeContentLockPayload C E j = some (.v1 lock) ↔
      decodeContentLock C j = some lock ∧ lock.version = CONTENT_LOCK_VERSION := by
  unfold decodeContentLockPayload
  cases hd : decodeContentLock C j with
  | some lock' =>
    by_cases hv : lock'.version = CONTENT_LOCK_VERSION
    · simp only [hv, if_true, Option.some.injEq, ContentLockPayload.v1.injEq]
      exact ⟨fun he => ⟨he, he ▸ hv⟩, And.left⟩
    · simp only [hv, if_false, reduceCtorEq, Option.some.injEq, false_iff, not_and]
      rintro rfl
      exact hv
  | none =>
    simp only [reduceCtorEq, false_and, iff_false]
    split
    · split <;> simp
    · simp

theorem decodeContentLock_of_v2 {lock : ContentLockV2}
    (h : decodeContentLockPayload C E j = some (.v2 lock)) : decodeContentLock C j = none := by
  unfold decodeContentLockPayload at h
  split at h
  · split at h <;> cases h
  · assumption

end PubkyLocks
