/-
  The criteria of version-1 content locks (`locks-core/src/lock_policy.rs`): the
  public parameters of a `paykit-payment` criterion and the policy of a lock that
  has one.
-/
import PubkyLocks.Core.Wire

namespace PubkyLocks

open Checks (refuse okOr)

/-! ## Errors -/

inductive PaykitPaymentParamsValidationError where
  | notObject
  | missingField (field : String)
  | unknownField (field : String)
  | invalidRecipientPubky
  | invalidAmount
  | invalidAsset
  | invalidPaymentIn
deriving DecidableEq, Repr

def PaykitPaymentParamsValidationError.message : PaykitPaymentParamsValidationError → String
  | notObject => "paykit-payment params must be a JSON object"
  | missingField f => "paykit-payment params missing field: " ++ f
  | unknownField f => "paykit-payment params contain unknown field: " ++ f
  | invalidRecipientPubky => "paykit-payment recipient_pubky must be a valid Pubky public key"
  | invalidAmount => "paykit-payment amount must be a positive decimal integer string"
  | invalidAsset => "paykit-payment asset must be a non-empty string"
  | invalidPaymentIn => "paykit-payment payment_in must be a positive whole-hour JSON u64"

inductive PaykitPaymentPolicyValidationError where
  | mustBeOnlyCriterion
  | invalidParams (reason : PaykitPaymentParamsValidationError)
  | recipientMustMatchCreator
  | invalidLockLogic (criterionId : String)
deriving DecidableEq, Repr

def PaykitPaymentPolicyValidationError.message : PaykitPaymentPolicyValidationError → String
  | mustBeOnlyCriterion => "paykit-payment must be the content lock's only criterion"
  | invalidParams r => "invalid paykit-payment criterion params: " ++ r.message
  | recipientMustMatchCreator =>
    "paykit-payment recipient_pubky must match the content lock creator"
  | invalidLockLogic id => "paykit-payment lock logic must reference only criterion " ++ id

/-! ## Parameters -/

structure PaykitPaymentParams where
  recipientPubky : CreatorPubky
  amount : String
  asset : String
  paymentIn : ℕ
deriving DecidableEq, Repr

/-- A positive decimal integer. -/
def validPaykitAmount (amount : String) : Bool :=
  !amount.isEmpty && amount.toList.all Char.isDigit && amount.toList.any (· != '0')

section
variable (C : Codec)

def validatePaykitPaymentParams (params : Json) :
    Except PaykitPaymentParamsValidationError PaykitPaymentParams := do
  let object ← okOr params.asObject? .notObject
  Checks.checkAll
    (fun f => refuse (f.1 ∉ ["recipient_pubky", "amount", "asset", "payment_in"])
      (.unknownField f.1)) object
  let recipient ← okOr ((params.field? "recipient_pubky").bind Json.asStr?)
    (.missingField "recipient_pubky")
  let recipient ← okOr (C.parsePubky recipient) .invalidRecipientPubky
  let amount ← okOr (params.field? "amount") (.missingField "amount")
  let amount ← okOr amount.asStr? .invalidAmount
  refuse (!validPaykitAmount amount) .invalidAmount
  let asset ← okOr (params.field? "asset") (.missingField "asset")
  let asset ← okOr asset.asStr? .invalidAsset
  refuse asset.isEmpty .invalidAsset
  let paymentIn ← okOr (params.field? "payment_in") (.missingField "payment_in")
  let paymentIn ← okOr (paymentIn.asU64?.filter (0 < ·)) .invalidPaymentIn
  pure ⟨⟨recipient⟩, amount, asset, paymentIn⟩

def Criterion.paykitPaymentParams (c : Criterion) :
    Except PaykitPaymentParamsValidationError (Option PaykitPaymentParams) :=
  match c.verifierType with
  | .devStatic => .ok none
  | .paykitPayment => (validatePaykitPaymentParams C c.params).map some

def Criterion.validateParams (c : Criterion) : Except PaykitPaymentParamsValidationError Unit :=
  (c.paykitPaymentParams C).map fun _ => ()

/-! ## The policy of a lock -/

def ContentLock.validatePaykitPaymentV1Policy (lock : ContentLock) :
    Except PaykitPaymentPolicyValidationError Unit :=
  match lock.criteria.find? fun c => c.verifierType = .paykitPayment with
  | none => .ok ()
  | some payment => do
    refuse (lock.criteria.length ≠ 1) .mustBeOnlyCriterion
    (payment.validateParams C).mapError .invalidParams
    let recipient ← okOr (((payment.params.field? "recipient_pubky").bind Json.asStr?).bind
      C.parsePubky) (.invalidParams .invalidRecipientPubky)
    refuse (recipient ≠ lock.creator.text) .recipientMustMatchCreator
    refuse (lock.lockLogic.criteria ≠ [payment.criterionId])
      (.invalidLockLogic payment.criterionId)

def VerifierType.text : VerifierType → String
  | devStatic => "dev-static"
  | paykitPayment => "paykit-payment"

def Criterion.paramsMessage (c : Criterion) (e : PaykitPaymentParamsValidationError) : String :=
  "invalid params for " ++ c.verifierType.text ++ " criterion " ++ c.criterionId ++ ": " ++ e.message

/-- `validate_criterion_params`: the message of the first criterion with invalid
    parameters. -/
def validateCriterionParams (criteria : List Criterion) : Except String Unit :=
  Checks.checkAll (fun c => (c.validateParams C).mapError c.paramsMessage) criteria

end

end PubkyLocks
