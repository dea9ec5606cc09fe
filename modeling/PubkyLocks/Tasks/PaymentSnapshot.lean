/-
  The durable evaluator state of payment tasks (`application/models/payment_v2.rs`):
  invoice and provider status, validation of a snapshot and of the progress
  from one snapshot to the next.

  `PaymentTaskSnapshotV1.Valid` lists what a validated snapshot satisfies, and
  `new_spec` says what an admission starts with.
-/
import PubkyLocks.Tasks.Record

namespace PubkyLocks

open Checks

def PAYMENT_TASK_SNAPSHOT_VERSION : ℕ := 1

/-! ## Data -/

inductive PaymentAssetV2 where
  | btc
deriving DecidableEq, Repr

inductive PaymentInvoiceState where
  | pending
  | created (invoiceCreatedAt proposalExpiresAt : Timestamp)
deriving DecidableEq, Repr

inductive PaymentRequestStateV2 where
  | proposed
  | proposalExpired
  | accepted
  | rejected
  | canceled
  | proofSubmitted
  | activeRecurring
  | recoveryRequired
  | invalidConflict
deriving DecidableEq, Repr

inductive PaymentStateV2 where
  | undetected
  | detected
  | confirmed
  | expired
deriving DecidableEq, Repr

inductive PaymentSampleStatusV2 where
  | undetected
  | detected
  | confirmed
deriving DecidableEq, Repr

structure BitcoinOutpointV2 where
  txid : String
  vout : ℕ
deriving DecidableEq, Repr

/-- One observation of the payment by the provider. -/
structure PaymentSampleV2 where
  observedAt : Timestamp
  status : PaymentSampleStatusV2
  outpoint : Option BitcoinOutpointV2
  confirmations : ℕ
  amountMatched : Bool
deriving DecidableEq, Repr

structure PaymentTermsV2 where
  recipientPubky : CreatorPubky
  amount : String
  amountSats : ℕ
  asset : PaymentAssetV2
  minimumConfirmations : ℕ
deriving DecidableEq, Repr

structure PaymentProviderStatus where
  creator : CreatorPubky
  bundleId : BundleId
  requestState : PaymentRequestStateV2
  paymentState : PaymentStateV2
  invoiceCreatedAt : Timestamp
  proposalExpiresAt : Timestamp
  deadline : Timestamp
  asset : PaymentAssetV2
  minimumConfirmations : ℕ
  currentSample : Option PaymentSampleV2
  firstThresholdSatisfied : Option PaymentSampleV2
deriving DecidableEq, Repr

inductive PaymentOperationalErrorCategory where
  | rateLimited
  | notFound
  | server
  | timeout
  | transport
deriving DecidableEq, Repr

/-- The evaluation result of a payment task. -/
inductive PaymentRootState where
  | pending
  | satisfied
  | expired (reason : VerificationTerminalReason)
  | failed (reason : VerificationTerminalReason)
deriving DecidableEq, Repr

namespace PaymentRootState

def terminalStatus : PaymentRootState → Option VerificationTaskStatus
  | pending => none
  | satisfied => some .publishingEntitlement
  | expired _ => some .expired
  | failed _ => some .failed

def terminalReason : PaymentRootState → Option VerificationTerminalReason
  | pending | satisfied => none
  | expired r | failed r => some r

end PaymentRootState

structure PaymentTaskSnapshotV1 where
  schemaVersion : ℕ
  creator : CreatorPubky
  bundleId : BundleId
  submittedProofBundle : SubmittedProofBundleV2
  pubkyLockResource : PubkyLockResource
  lockHash : LockHash
  reader : CreatorPubky
  payment : PaymentTermsV2
  acceptedAt : Timestamp
  deadlineAt : Timestamp
  invoice : PaymentInvoiceState
  providerStatus : Option PaymentProviderStatus
  operationalFailureCount : ℕ
  operationalFailureTotal : ℕ
  operationalFirstFailureAt : Option Timestamp
  operationalLastFailureAt : Option Timestamp
  operationalLastCategory : Option PaymentOperationalErrorCategory
  operationalLastHttpStatus : Option ℕ
  nextDueAt : Option Timestamp
  root : PaymentRootState
deriving DecidableEq

/-! ## Provider statuses -/

def validateTimestamp (t : Timestamp) : Except String Unit :=
  if t.isMicrosecond then .ok () else .error "provider timestamp exceeds microsecond precision"

/-- A lower-case hexadecimal digit. -/
def isLowerHex (c : Char) : Bool :=
  Text.isAsciiDigit c || (97 ≤ c.toNat && c.toNat ≤ 102)

def PaymentSampleV2.validate (s : PaymentSampleV2) : Except String Unit := do
  validateTimestamp s.observedAt
  refuse (s.confirmations > 6) "provider confirmations exceed six"
  refuse (s.outpoint.any fun o => o.txid.toList.length ≠ 64 || !o.txid.toList.all isLowerHex)
    "invalid bitcoin outpoint"
  let valid := match s.status with
    | .undetected => s.outpoint.isNone && s.confirmations == 0 && !s.amountMatched
    | .detected => s.outpoint.isSome && s.confirmations == 0
    | .confirmed => s.outpoint.isSome && s.confirmations > 0
  refuse (!valid) "impossible provider payment sample"

namespace PaymentProviderStatus

/-- The threshold evidence that both `validate` and `validate_against` refuse. -/
def thresholdInvalid (s : PaymentProviderStatus) (first : PaymentSampleV2) : Bool :=
  first.outpoint.isNone || !first.amountMatched ||
    first.confirmations < s.minimumConfirmations || first.observedAt > s.deadline ||
    first.status == .undetected

def validate (s : PaymentProviderStatus) : Except String Unit := do
  checkAll validateTimestamp [s.invoiceCreatedAt, s.proposalExpiresAt, s.deadline]
  refuse (s.invoiceCreatedAt ≥ s.proposalExpiresAt ∨ s.proposalExpiresAt ≥ s.deadline ∨
      s.minimumConfirmations > 6 ∨ s.asset ≠ .btc)
    "invalid provider status envelope"
  onSome s.currentSample fun current => do
    current.validate
    refuse (current.observedAt < s.invoiceCreatedAt) "current payment evidence predates invoice"
  onSome s.firstThresholdSatisfied fun first => do
    first.validate
    refuse (decide (first.observedAt < s.invoiceCreatedAt) || s.thresholdInvalid first)
      "invalid first threshold evidence"

/-- The comparison with the invoice in `validate_against`. -/
def validateInvoice (s : PaymentProviderStatus) : PaymentInvoiceState → Except String Unit
  | .pending => .error "provider status precedes invoice creation"
  | .created invoiceCreatedAt proposalExpiresAt =>
    refuse (s.invoiceCreatedAt ≠ invoiceCreatedAt ∨ s.proposalExpiresAt ≠ proposalExpiresAt)
      "provider status create timestamps changed"

def validateAgainst (s : PaymentProviderStatus) (t : PaymentTaskSnapshotV1) : Except String Unit :=
    do
  s.validate
  refuse (s.creator ≠ t.creator ∨ s.bundleId ≠ t.bundleId ∨ s.deadline ≠ t.deadlineAt ∨
      s.asset ≠ .btc ∨ s.minimumConfirmations ≠ t.payment.minimumConfirmations)
    "provider status binding mismatch"
  s.validateInvoice t.invoice
  onSome s.currentSample PaymentSampleV2.validate
  onSome s.firstThresholdSatisfied fun first => do
    first.validate
    refuse (s.thresholdInvalid first) "invalid first threshold evidence"

end PaymentProviderStatus

def PaymentTermsV2.validate (p : PaymentTermsV2) (creator : CreatorPubky) : Except String Unit :=
  if p.recipientPubky ≠ creator || p.amountSats == 0 ||
      Text.parseU64 p.amount ≠ some p.amountSats || !p.amount.toList.all Text.isAsciiDigit ||
      p.asset ≠ .btc || p.minimumConfirmations > 6 then
    .error "invalid persisted payment terms"
  else .ok ()

/-! ## Snapshots -/

namespace PaymentTaskSnapshotV1

/-- The operational aggregate of `PaymentTaskSnapshotV1::validate`. -/
def validateAggregate (s : PaymentTaskSnapshotV1) : Except String Unit :=
  if s.operationalFailureTotal = 0 then
    if s.operationalFailureCount ≠ 0 || s.operationalFirstFailureAt.isSome ||
        s.operationalLastFailureAt.isSome || s.operationalLastCategory.isSome ||
        s.operationalLastHttpStatus.isSome then
      .error "payment operational aggregate is inconsistent"
    else .ok ()
  else match s.operationalFirstFailureAt, s.operationalLastFailureAt, s.operationalLastCategory with
    | some first, some last, some _ =>
      if s.operationalFailureCount > s.operationalFailureTotal ∨ first < s.acceptedAt ∨
          first > last ∨ last > s.deadlineAt then
        .error "payment operational aggregate is invalid"
      else .ok ()
    | _, _, _ => .error "payment operational aggregate is incomplete"

/-- The create timestamps in `PaymentTaskSnapshotV1::validate`. -/
def validateInvoiceWindow (s : PaymentTaskSnapshotV1) : PaymentInvoiceState → Except String Unit
  | .pending => .ok ()
  | .created invoiceCreatedAt proposalExpiresAt => do
    validateTimestamp invoiceCreatedAt
    validateTimestamp proposalExpiresAt
    refuse (invoiceCreatedAt < s.acceptedAt ∨ invoiceCreatedAt > proposalExpiresAt ∨
        proposalExpiresAt ≥ s.deadlineAt)
      "invalid provider create timestamps"

def validate (s : PaymentTaskSnapshotV1) : Except String Unit := do
  refuse (s.schemaVersion ≠ PAYMENT_TASK_SNAPSHOT_VERSION)
    "unsupported payment task snapshot schema_version"
  refuse (!s.acceptedAt.isMicrosecond || !s.deadlineAt.isMicrosecond)
    "payment task timestamps must use microsecond precision"
  let window : Duration := s.deadlineAt - s.acceptedAt
  refuse (!(60 ≤ window.wholeSeconds && window.wholeSeconds ≤ 604800) ||
      window ≠ Duration.seconds window.wholeSeconds)
    "invalid payment task verification window"
  refuse (s.pubkyLockResource.creator ≠ s.creator ∨
      s.submittedProofBundle.pubkyLockResource ≠ s.pubkyLockResource ∨
      s.submittedProofBundle.bundleId ≠ s.bundleId ∨
      s.submittedProofBundle.readerPubky ≠ some s.reader)
    "payment task identity diverges"
  refuse (s.pubkyLockResource.lockId ≠ LockId.fromHash s.lockHash)
    "payment task lock hash diverges from resource"
  s.payment.validate s.creator
  s.validateInvoiceWindow s.invoice
  onSome s.providerStatus fun status => do
    refuse (s.invoice = .pending) "provider status exists before invoice creation"
    status.validateAgainst s
  s.validateAggregate
  refuse (s.nextDueAt.any fun due => due > s.deadlineAt) "payment retry exceeds deadline"

def validatePristineAdmission (s : PaymentTaskSnapshotV1) : Except String Unit := do
  s.validate
  refuse (s.invoice ≠ .pending || s.providerStatus.isSome || s.root ≠ .pending ||
      s.nextDueAt.isSome || s.operationalFailureTotal ≠ 0)
    "new payment task must be pristine"

/-- The fields an admission binds. -/
def binding (s : PaymentTaskSnapshotV1) :=
  (s.schemaVersion, s.creator, s.bundleId, s.submittedProofBundle, s.pubkyLockResource,
    s.lockHash, s.reader, s.payment, s.acceptedAt, s.deadlineAt)

def hasSameAdmissionBinding (s t : PaymentTaskSnapshotV1) : Bool := s.binding == t.binding

def firstThreshold (s : PaymentTaskSnapshotV1) : Option PaymentSampleV2 :=
  s.providerStatus.bind (·.firstThresholdSatisfied)

def validateProgressFrom (s current : PaymentTaskSnapshotV1) : Except String Unit := do
  current.validate
  s.validate
  refuse (current.root ≠ .pending ∧ s.root ≠ current.root) "terminal payment root cannot change"
  refuse (!s.hasSameAdmissionBinding current) "payment snapshot immutable binding changed"
  refuse (current.invoice ≠ .pending ∧ s.invoice ≠ current.invoice)
    "provider create response changed"
  refuse (current.firstThreshold.isSome ∧ current.firstThreshold ≠ s.firstThreshold)
    "sticky payment threshold evidence changed"
  refuse (s.operationalFailureTotal < current.operationalFailureTotal)
    "payment operational total regressed"

def new (submitted : SubmittedProofBundleV2) (lockHash : LockHash) (payment : PaymentPolicyV2)
    (acceptedAt : Timestamp) (windowSeconds : ℕ) : Except String PaymentTaskSnapshotV1 := do
  let some reader := submitted.readerPubky | throw "payment task requires reader"
  let creator := submitted.pubkyLockResource.creator
  refuse (payment.recipientPubky ≠ creator ∨ payment.asset ≠ "BTC" ∨
      payment.minimumConfirmations > 6)
    "invalid payment task policy"
  let some amountSats := Text.parseU64 payment.amount | throw "invalid payment task amount"
  refuse (amountSats == 0 || !payment.amount.toList.all Text.isAsciiDigit)
    "invalid payment task amount"
  refuse (windowSeconds ≥ 2 ^ 63) "verification window exceeds supported duration"
  refuse (!(60 ≤ windowSeconds && windowSeconds ≤ 604800)) "invalid verification window"
  let some deadlineAt := acceptedAt.checkedAdd (Duration.seconds windowSeconds)
    | throw "verification deadline overflow"
  let s : PaymentTaskSnapshotV1 :=
    { schemaVersion := PAYMENT_TASK_SNAPSHOT_VERSION, creator, bundleId := submitted.bundleId,
      submittedProofBundle := submitted, pubkyLockResource := submitted.pubkyLockResource,
      lockHash, reader,
      payment := ⟨payment.recipientPubky, payment.amount, amountSats, .btc,
        payment.minimumConfirmations⟩,
      acceptedAt, deadlineAt, invoice := .pending, providerStatus := none,
      operationalFailureCount := 0, operationalFailureTotal := 0,
      operationalFirstFailureAt := none, operationalLastFailureAt := none,
      operationalLastCategory := none, operationalLastHttpStatus := none, nextDueAt := none,
      root := .pending }
  s.validatePristineAdmission
  pure s

def applyCreateResponse (s : PaymentTaskSnapshotV1)
    (invoiceCreatedAt proposalExpiresAt deadline : Timestamp) :
    Except String PaymentTaskSnapshotV1 := do
  refuse (s.invoice ≠ .pending ∨ deadline ≠ s.deadlineAt)
    "provider create response conflicts with payment task"
  let next := { s with invoice := .created invoiceCreatedAt proposalExpiresAt }
  next.validateProgressFrom s
  pure next

def applyStatus (s : PaymentTaskSnapshotV1) (status : PaymentProviderStatus) :
    Except String PaymentTaskSnapshotV1 := do
  status.validateAgainst s
  let next := { s with providerStatus := some status, operationalFailureCount := 0,
                       nextDueAt := none }
  next.validateProgressFrom s
  pure next

/-! ## What validation establishes -/

/-- What a snapshot that passes `validate` satisfies. -/
structure Valid (s : PaymentTaskSnapshotV1) : Prop where
  window : 60 ≤ Duration.wholeSeconds (s.deadlineAt - s.acceptedAt)
  creator : s.pubkyLockResource.creator = s.creator
  resource : s.submittedProofBundle.pubkyLockResource = s.pubkyLockResource
  bundleId : s.submittedProofBundle.bundleId = s.bundleId
  reader : s.submittedProofBundle.readerPubky = some s.reader
  lockId : s.pubkyLockResource.lockId = LockId.fromHash s.lockHash

theorem valid_of_validate {s : PaymentTaskSnapshotV1} (h : s.validate = .ok ()) : s.Valid := by
  simp only [validate, seq_eq_ok, refuse_eq_ok] at h
  obtain ⟨-, -, hwindow, hid, hlock, -⟩ := h
  simp only [Bool.or_eq_true, Bool.not_eq_true', Bool.and_eq_false_iff, decide_eq_false_iff_not,
    not_or, not_not] at hwindow
  simp only [not_or, not_not] at hid
  exact ⟨hwindow.1.1, hid.1, hid.2.1, hid.2.2.1, hid.2.2.2, not_not.1 hlock⟩

theorem binding_of_progress {s current : PaymentTaskSnapshotV1}
    (h : s.validateProgressFrom current = .ok ()) :
    s.validate = .ok () ∧ s.binding = current.binding := by
  simp only [validateProgressFrom, bind_eq_ok, refuse_eq_ok] at h
  obtain ⟨_, -, _, hv, _, -, _, hsame, -⟩ := h
  rw [Bool.not_eq_true', Bool.not_eq_false, hasSameAdmissionBinding, beq_iff_eq] at hsame
  exact ⟨hv, hsame⟩

theorem Valid.deadline {s : PaymentTaskSnapshotV1} (h : s.Valid) : s.acceptedAt ≤ s.deadlineAt := by
  have hwindow : 0 < Duration.wholeSeconds (s.deadlineAt - s.acceptedAt) :=
    lt_of_lt_of_le (by decide) h.window
  exact Int.le_of_sub_nonneg (Duration.nonneg_of_wholeSeconds hwindow)

/-- **Admissions.**  A new snapshot is valid, pending and bound to its inputs. -/
theorem new_spec {submitted : SubmittedProofBundleV2} {hash : LockHash} {policy : PaymentPolicyV2}
    {acceptedAt : Timestamp} {window : ℕ} {s : PaymentTaskSnapshotV1}
    (h : new submitted hash policy acceptedAt window = .ok s) :
    s.validate = .ok () ∧ s.submittedProofBundle = submitted ∧ s.acceptedAt = acceptedAt ∧
      s.root = .pending ∧ s.providerStatus = none ∧
      s.payment.minimumConfirmations = policy.minimumConfirmations := by
  unfold new at h
  split at h
  · obtain ⟨-, h⟩ := seq_eq_ok.1 h
    split at h
    · obtain ⟨-, h⟩ := seq_eq_ok.1 h
      obtain ⟨-, h⟩ := seq_eq_ok.1 h
      obtain ⟨-, h⟩ := seq_eq_ok.1 h
      split at h
      · obtain ⟨hv, h⟩ := seq_eq_ok.1 h
        obtain ⟨hv, -⟩ := seq_eq_ok.1 hv
        rw [pure_eq_ok] at h
        subst h
        exact ⟨hv, rfl, rfl, rfl, rfl, rfl⟩
      · cases h
    · cases h
  · cases h

end PaymentTaskSnapshotV1

def paymentSubmission : SubmittedProofBundleV2 :=
  ⟨2, ⟨"bundle"⟩, .of ⟨"creator"⟩ (LockId.fromHash (.replicate 7)), some ⟨"reader"⟩⟩

/-- The snapshot at the admission of the submission. -/
def admittedPaymentSnapshot : PaymentTaskSnapshotV1 where
  schemaVersion := PAYMENT_TASK_SNAPSHOT_VERSION
  creator := ⟨"creator"⟩
  bundleId := ⟨"bundle"⟩
  submittedProofBundle := paymentSubmission
  pubkyLockResource := paymentSubmission.pubkyLockResource
  lockHash := .replicate 7
  reader := ⟨"reader"⟩
  payment := ⟨⟨"creator"⟩, "1000", 1000, .btc, 1⟩
  acceptedAt := 0
  deadlineAt := Duration.seconds 600
  invoice := .pending
  providerStatus := none
  operationalFailureCount := 0
  operationalFailureTotal := 0
  operationalFirstFailureAt := none
  operationalLastFailureAt := none
  operationalLastCategory := none
  operationalLastHttpStatus := none
  nextDueAt := none
  root := .pending

end PubkyLocks
