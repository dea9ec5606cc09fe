/-
  How payments are decided: the reducer of the payment lane
  (`application/payment_v2_reducer.rs`) and the action its worker takes on a
  claimed task (`locks-server/src/payment_worker.rs`), the decision of the
  version-1 Paykit verifier (`infrastructure/verifiers/paykit_payment.rs`),
  and the classification the deletion drain uses
  (`application/use_cases/drain_lock_payments.rs`).

  A payment root is `Closed` when its reason is a payment reason that the task
  table allows for the status the root leads to.  The repository does not check
  this; it holds because every decision below is `Closed`
  (`reducePaymentSnapshot_closed`, `paymentWorkerAction_closed`).  The reasons of
  the version-1 decisions are allowed too (`paymentStatusReason_ofExpired`,
  `classifyPaymentTask_reason`), and the drain decides like the verifier
  (`drain_decides_alike`).
-/
import PubkyLocks.Tasks.PaymentSnapshot

namespace PubkyLocks

open Checks

def VerificationTerminalReason.ofPaymentExpiry : VerificationTerminalReason → Bool
  | paymentRequestRejected | paymentRequestCanceled | proposalExpired | paymentDeadlineExpired
  | contentLockDeleted => true
  | graphConditionNotObservedByDeadline | verificationUnavailableByDeadline
  | invalidVerifierResponse | verificationConflict => false

variable {r : VerificationTerminalReason} {s next : PaymentTaskSnapshotV1} {now : Timestamp}
  {a : PaymentWorkerAction} {status : PaymentProviderStatus}

theorem VerificationTerminalReason.ofExpired_of_ofPaymentExpiry
    (h : r.ofPaymentExpiry) : r.ofExpired := by
  cases r <;> first | rfl | cases h

/-- The reason of a terminal root is one its status may carry. -/
def PaymentRootState.Closed : PaymentRootState → Prop
  | pending | satisfied => True
  | expired r => r.ofPaymentExpiry
  | failed r => r.ofFailed

/-! ## The reducer of the payment lane -/

def PaymentRequestStateV2.isAccepted : PaymentRequestStateV2 → Bool
  | accepted | proofSubmitted | activeRecurring => true
  | _ => false

def reduceStatus (status : PaymentProviderStatus) (deadlineAt now : Timestamp) : PaymentRootState :=
  if status.firstThresholdSatisfied.isSome then
    if status.requestState.isAccepted then .satisfied else .failed .invalidVerifierResponse
  else match status.requestState, status.paymentState with
    | .rejected, _ => .expired .paymentRequestRejected
    | .canceled, _ => .expired .paymentRequestCanceled
    | .proposalExpired, _ => .expired .proposalExpired
    | .accepted, .expired | .proofSubmitted, .expired | .activeRecurring, .expired =>
      .expired .paymentDeadlineExpired
    | .invalidConflict, _ => .failed .verificationConflict
    | .recoveryRequired, _ =>
      if now ≥ deadlineAt then .failed .verificationUnavailableByDeadline else .pending
    | .proposed, .undetected =>
      if now < status.proposalExpiresAt then .pending
      else if now ≥ deadlineAt then .failed .verificationUnavailableByDeadline
      else .failed .invalidVerifierResponse
    | .accepted, _ | .proofSubmitted, _ | .activeRecurring, _ =>
      if now < deadlineAt then .pending else .failed .verificationUnavailableByDeadline
    | .proposed, _ => .failed .invalidVerifierResponse

def reducePaymentSnapshot (s : PaymentTaskSnapshotV1) (now : Timestamp) :
    Except String PaymentTaskSnapshotV1 := do
  s.validate
  if s.root ≠ .pending then return s
  match s.providerStatus with
  | none =>
    let next := if now ≥ s.deadlineAt then
        { s with root := .failed .verificationUnavailableByDeadline } else s
    next.validate
    return next
  | some status =>
    let next := { s with root := reduceStatus status s.deadlineAt now }
    next.validate
    return next

theorem reduceStatus_closed (status : PaymentProviderStatus) (deadlineAt now : Timestamp) :
    (reduceStatus status deadlineAt now).Closed := by
  unfold reduceStatus
  by_cases hf : status.firstThresholdSatisfied.isSome
  · rw [if_pos hf]
    by_cases ha : status.requestState.isAccepted
    · rw [if_pos ha]; trivial
    · rw [if_neg ha]; rfl
  · rw [if_neg hf]
    cases status.requestState <;> cases status.paymentState <;>
      first | rfl | (dsimp only; split_ifs <;> trivial)

/-- **The reducer only builds closed roots** from a closed one. -/
theorem reducePaymentSnapshot_closed {s' : PaymentTaskSnapshotV1}
    (h : reducePaymentSnapshot s now = .ok s') (hs : s.root.Closed) : s'.root.Closed := by
  unfold reducePaymentSnapshot at h
  obtain ⟨-, -, h⟩ := bind_eq_ok.1 h
  split at h
  · cases h; exact hs
  · split at h
    · obtain ⟨-, -, h⟩ := bind_eq_ok.1 h
      cases h
      split_ifs
      · rfl
      · exact hs
    · obtain ⟨-, -, h⟩ := bind_eq_ok.1 h
      cases h
      exact reduceStatus_closed ..

/-! ## The worker of the payment lane -/

inductive PaymentProviderErrorKind where
  | invalidResponse
  | conflict
  | retryable
deriving DecidableEq, Repr

structure PaymentProviderError where
  kind : PaymentProviderErrorKind
  retryAfterSeconds : Option ℕ
deriving DecidableEq, Repr

/-- The provider's answer to the creation of an invoice. -/
structure PaymentCreated where
  invoiceCreatedAt : Timestamp
  proposalExpiresAt : Timestamp
  deadline : Timestamp
deriving DecidableEq, Repr

/-- What the worker reads while it handles one claim: its clock before and
    after the provider call, and the provider's answers. -/
structure PaymentWorkerInput where
  dispatchNow : Timestamp
  createInvoice : Except PaymentProviderError PaymentCreated
  invoiceStatus : Except PaymentProviderError PaymentProviderStatus
  now : Timestamp

/-- The repository call the worker ends with. -/
inductive PaymentWorkerAction where
  | persist (snapshot : PaymentTaskSnapshotV1) (now : Timestamp)
  | schedule (snapshot : PaymentTaskSnapshotV1) (now due : Timestamp)
deriving DecidableEq

def PaymentWorkerAction.snapshot : PaymentWorkerAction → PaymentTaskSnapshotV1
  | persist s _ => s
  | schedule s _ _ => s

/-- `u32::saturating_add(1)`. -/
def saturatingSucc (n : ℕ) : ℕ := min (n + 1) (2 ^ 32 - 1)

/-- The retry delay of `handle_provider_error`, in seconds. -/
def backoffSeconds (failureCount : ℕ) (retryAfter : Option ℕ) : ℕ :=
  let index := min (failureCount - 1) 5
  max 1 (min 60 (retryAfter.getD ([1, 2, 4, 8, 16, 30][index]?.getD 30)))

def handleProviderError (s : PaymentTaskSnapshotV1) (e : PaymentProviderError)
    (observedAt : Timestamp) : Except String PaymentWorkerAction :=
  match e.kind with
  | .invalidResponse => .ok (.persist { s with root := .failed .invalidVerifierResponse } observedAt)
  | .conflict => .ok (.persist { s with root := .failed .verificationConflict } observedAt)
  | .retryable =>
    let failureAt := min observedAt s.deadlineAt
    let state := { s with
      operationalFailureCount := saturatingSucc s.operationalFailureCount
      operationalFailureTotal := saturatingSucc s.operationalFailureTotal
      operationalFirstFailureAt := some (s.operationalFirstFailureAt.getD failureAt)
      operationalLastFailureAt := some failureAt
      operationalLastCategory := some .transport }
    if observedAt ≥ s.deadlineAt then
      (reducePaymentSnapshot state observedAt).map (.persist · observedAt)
    else
      let seconds := backoffSeconds state.operationalFailureCount e.retryAfterSeconds
      let due := min (observedAt + Duration.seconds seconds) s.deadlineAt
      .ok (.schedule { state with nextDueAt := some due } observedAt due)

/-- The answer to an invoice creation in `run_once`. -/
def onInvoiceCreated (s : PaymentTaskSnapshotV1) (c : PaymentCreated) (now : Timestamp) :
    Except String PaymentWorkerAction :=
  match s.applyCreateResponse c.invoiceCreatedAt c.proposalExpiresAt c.deadline with
  | .error _ => .ok (.persist { s with root := .failed .invalidVerifierResponse } now)
  | .ok next =>
    if now ≥ s.deadlineAt then (reducePaymentSnapshot next now).map (.persist · now)
    else .ok (.schedule next now (min (now + 1000000) s.deadlineAt))

/-- The answer to a status request in `run_once`. -/
def onInvoiceStatus (s : PaymentTaskSnapshotV1) (status : PaymentProviderStatus) (now : Timestamp) :
    Except String PaymentWorkerAction :=
  match s.applyStatus status with
  | .error _ => .ok (.persist { s with root := .failed .invalidVerifierResponse } now)
  | .ok next => (reducePaymentSnapshot next now).map fun reduced =>
    if reduced.root = .pending then
      .schedule reduced now (min (now + Duration.seconds 5) reduced.deadlineAt)
    else .persist reduced now

/-- The part of `run_once` after a claim whose task is not being published. -/
def paymentWorkerAction (s : PaymentTaskSnapshotV1) (i : PaymentWorkerInput) :
    Except String PaymentWorkerAction :=
  if s.root ≠ .pending then .ok (.persist s i.now)
  else if i.dispatchNow ≥ s.deadlineAt then
    (reducePaymentSnapshot s i.dispatchNow).map (.persist · i.dispatchNow)
  else if s.invoice = .pending then
    match i.createInvoice with
    | .error e => handleProviderError s e i.now
    | .ok c => onInvoiceCreated s c i.now
  else
    match i.invoiceStatus with
    | .error e => handleProviderError s e i.now
    | .ok status => onInvoiceStatus s status i.now

theorem applyCreateResponse_root {a b c : Timestamp}
    (h : s.applyCreateResponse a b c = .ok next) : next.root = s.root := by
  unfold PaymentTaskSnapshotV1.applyCreateResponse at h
  obtain ⟨-, -, h⟩ := bind_eq_ok.1 h
  obtain ⟨-, -, h⟩ := bind_eq_ok.1 h
  rw [← pure_eq_ok.1 h]

theorem applyStatus_root (h : s.applyStatus status = .ok next) : next.root = s.root := by
  unfold PaymentTaskSnapshotV1.applyStatus at h
  obtain ⟨-, -, h⟩ := bind_eq_ok.1 h
  obtain ⟨-, -, h⟩ := bind_eq_ok.1 h
  rw [← pure_eq_ok.1 h]

theorem handleProviderError_closed {e : PaymentProviderError} {observedAt : Timestamp}
    (h : handleProviderError s e observedAt = .ok a) (hs : s.root.Closed) :
    a.snapshot.root.Closed := by
  unfold handleProviderError at h
  split at h
  · cases h; rfl
  · cases h; rfl
  · dsimp only at h
    split_ifs at h
    · obtain ⟨s', hr, rfl⟩ := map_eq_ok.1 h
      exact reducePaymentSnapshot_closed hr hs
    · cases h; exact hs

theorem onInvoiceCreated_closed {c : PaymentCreated} (h : onInvoiceCreated s c now = .ok a)
    (hs : s.root.Closed) :
    a.snapshot.root.Closed := by
  unfold onInvoiceCreated at h
  split at h
  · cases h; rfl
  · rename_i next hn
    rw [← applyCreateResponse_root hn] at hs
    split at h
    · obtain ⟨s', hr, rfl⟩ := map_eq_ok.1 h
      exact reducePaymentSnapshot_closed hr hs
    · cases h; exact hs

theorem onInvoiceStatus_closed (h : onInvoiceStatus s status now = .ok a)
    (hs : s.root.Closed) : a.snapshot.root.Closed := by
  unfold onInvoiceStatus at h
  split at h
  · cases h; rfl
  · rename_i next hn
    rw [← applyStatus_root hn] at hs
    obtain ⟨s', hr, rfl⟩ := map_eq_ok.1 h
    have hs' := reducePaymentSnapshot_closed hr hs
    split <;> exact hs'

/-- **The worker only persists and schedules closed roots.** -/
theorem paymentWorkerAction_closed {i : PaymentWorkerInput} (h : paymentWorkerAction s i = .ok a)
    (hs : s.root.Closed) :
    a.snapshot.root.Closed := by
  unfold paymentWorkerAction at h
  split at h
  · cases h; exact hs
  split at h
  · obtain ⟨s', hr, rfl⟩ := map_eq_ok.1 h
    exact reducePaymentSnapshot_closed hr hs
  split at h
  · split at h
    · exact handleProviderError_closed h hs
    · exact onInvoiceCreated_closed h hs
  · split at h
    · exact handleProviderError_closed h hs
    · exact onInvoiceStatus_closed h hs

/-! ## The version-1 verifier and the deletion drain -/

/-- `PaymentRequestState` of the Paykit port; the verifier knows all but the
    last two. -/
inductive PaymentRequestState where
  | proposed
  | proposalExpired
  | accepted
  | rejected
  | canceled
  | proofSubmitted
  | activeRecurring
  | recoveryRequired
  | invalidConflict
deriving DecidableEq, Repr

inductive PaymentState where
  | undetected
  | detected
  | confirmed
  | expired
deriving DecidableEq, Repr

structure PaymentObservation where
  confirmations : ℕ
  amountMatched : Bool
  paidOnTime : Bool
deriving DecidableEq, Repr

structure PaymentRequestStatus where
  requestState : PaymentRequestState
  paymentState : PaymentState
  invoiceCreatedAt : Timestamp
  paymentDeadline : Timestamp
  bitcoin : Option PaymentObservation
  usdtArbitrum : Option PaymentObservation
deriving DecidableEq, Repr

def paymentQualifies (state : PaymentState) (bitcoin usdtArbitrum : Option PaymentObservation)
    (minimumConfirmations : ℕ) : Bool :=
  bitcoin.any (fun p => p.amountMatched && p.paidOnTime &&
      p.confirmations ≥ minimumConfirmations &&
      (state == .confirmed || (minimumConfirmations == 0 && state == .detected))) ||
    usdtArbitrum.any (fun p => p.amountMatched && p.paidOnTime && p.confirmations > 0 &&
      state == .confirmed)

def paymentStatusReason (request : PaymentRequestState) (payment : PaymentState) :
    Option VerificationTerminalReason :=
  match request with
  | .rejected => some .paymentRequestRejected
  | .canceled => some .paymentRequestCanceled
  | .proposalExpired => some .proposalExpired
  | .accepted | .proofSubmitted | .activeRecurring =>
    if payment = .expired then some .paymentDeadlineExpired else none
  | _ => none

def classifyPaymentTask (s : PaymentRequestStatus) (minimumConfirmations : ℕ) :
    Except ApplicationError
      (Option (VerificationTaskStatus × Option VerificationTerminalReason)) :=
  match s.requestState, s.paymentState with
  | .recoveryRequired, _ | .invalidConflict, _ | .proofSubmitted, _ | .activeRecurring, _ =>
    .error (.invalidVerificationTaskState
      "Paykit payment request entered an unsupported failure state")
  | .rejected, _ => .ok (some (.expired, some .paymentRequestRejected))
  | .canceled, _ => .ok (some (.expired, some .paymentRequestCanceled))
  | .proposalExpired, _ => .ok (some (.expired, some .proposalExpired))
  | .accepted, .expired => .ok (some (.expired, some .paymentDeadlineExpired))
  | .proposed, _ => .ok none
  | .accepted, state =>
    if paymentQualifies state s.bitcoin s.usdtArbitrum minimumConfirmations then
      .ok (some (.completed, none))
    else .ok none

theorem paymentStatusReason_ofExpired {request : PaymentRequestState} {payment : PaymentState}
    (h : paymentStatusReason request payment = some r) :
    r.ofExpired := by
  revert h
  cases request <;> cases payment <;> rintro ⟨⟩ <;> rfl

theorem classifyPaymentTask_reason {s : PaymentRequestStatus} {n : ℕ}
    {status : VerificationTaskStatus}
    (h : classifyPaymentTask s n = .ok (some (status, some r))) :
    status = .expired ∧ r.ofExpired := by
  revert h
  unfold classifyPaymentTask
  cases s.requestState <;> cases s.paymentState <;> simp only [] <;>
    first
    | (intro h; cases h; done)
    | (rintro ⟨⟩; exact ⟨rfl, rfl⟩)
    | (split_ifs <;> intro h <;> cases h)

/-! ## The decision of the verifier -/

inductive PaykitPaymentRequestState where
  | proposed
  | proposalExpired
  | accepted
  | rejected
  | canceled
  | proofSubmitted
  | activeRecurring
deriving DecidableEq, Repr

/-- The state the drain is told. -/
def PaykitPaymentRequestState.port : PaykitPaymentRequestState → PaymentRequestState
  | proposed => .proposed
  | proposalExpired => .proposalExpired
  | accepted => .accepted
  | rejected => .rejected
  | canceled => .canceled
  | proofSubmitted => .proofSubmitted
  | activeRecurring => .activeRecurring

/-- The status the verifier is told. -/
structure PaykitPaymentStatus where
  requestState : PaykitPaymentRequestState
  paymentState : PaymentState
  bitcoin : Option PaymentObservation
  usdtArbitrum : Option PaymentObservation
deriving DecidableEq, Repr

/-- The same status as the drain is told it, with the times of the invoice. -/
def PaykitPaymentStatus.port (s : PaykitPaymentStatus)
    (invoiceCreatedAt paymentDeadline : Timestamp) : PaymentRequestStatus :=
  ⟨s.requestState.port, s.paymentState, invoiceCreatedAt, paymentDeadline, s.bitcoin,
    s.usdtArbitrum⟩

structure CriterionVerificationRequest where
  criterion : Criterion
  verifiedBy : LockServerPubky
  verifiedAt : Timestamp

inductive CriterionVerificationOutcome where
  | pending
  | satisfied (result : CriterionVerificationResult)
  | terminalUnsatisfied (reason : VerificationTerminalReason)

def paymentStatusDecision (status : Option PaykitPaymentStatus) (minimumConfirmations : ℕ)
    (request : CriterionVerificationRequest) : CriterionVerificationOutcome :=
  match status with
  | none => .pending
  | some s =>
    match paymentStatusReason s.requestState.port s.paymentState with
    | some reason => .terminalUnsatisfied reason
    | none =>
      if paymentQualifies s.paymentState s.bitcoin s.usdtArbitrum minimumConfirmations &&
          (s.requestState == .accepted || s.requestState == .proofSubmitted ||
            s.requestState == .activeRecurring) then
        .satisfied ⟨request.criterion.criterionId, true, request.verifiedAt, request.verifiedBy,
          .paykitPayment⟩
      else .pending

/-- **The deletion drain decides payments like the verifier.**  What the drain
    completes, expires or leaves open, the verifier decides the same way, and a
    payment the verifier accepts is completed or refused with an error; the
    states only the drain knows are errors. -/
theorem drain_decides_alike (n : ℕ) (request : CriterionVerificationRequest) :
    (∀ (s : PaykitPaymentStatus) (invoiceCreatedAt paymentDeadline : Timestamp),
      let classified := classifyPaymentTask (s.port invoiceCreatedAt paymentDeadline) n
      let decision := paymentStatusDecision (some s) n request
      (∀ reason, classified = .ok (some (.completed, reason)) →
        ∃ result, decision = .satisfied result) ∧
      (∀ reason, classified = .ok (some (.expired, reason)) →
        ∃ r, reason = some r ∧ decision = .terminalUnsatisfied r) ∧
      (classified = .ok none → decision = .pending) ∧
      ∀ result, decision = .satisfied result →
        classified = .ok (some (.completed, none)) ∨ ∃ e, classified = .error e) ∧
    ∀ s : PaymentRequestStatus,
      (∃ (p : PaykitPaymentStatus) (a b : Timestamp), s = p.port a b) ∨
        ∃ e, classifyPaymentTask s n = .error e := by
  refine ⟨fun ⟨state, payment, bitcoin, usdt⟩ a b => ?_, fun s => ?_⟩
  · simp only [classifyPaymentTask, paymentStatusDecision, PaykitPaymentStatus.port]
    cases hq : paymentQualifies payment bitcoin usdt n <;> cases state <;> cases payment <;>
      simp_all [PaykitPaymentRequestState.port, paymentStatusReason]
  · obtain ⟨state, payment, a, b, bitcoin, usdt⟩ := s
    cases state with
    | recoveryRequired => exact .inr ⟨_, rfl⟩
    | invalidConflict => exact .inr ⟨_, rfl⟩
    | proposed => exact .inl ⟨⟨.proposed, payment, bitcoin, usdt⟩, a, b, rfl⟩
    | proposalExpired => exact .inl ⟨⟨.proposalExpired, payment, bitcoin, usdt⟩, a, b, rfl⟩
    | accepted => exact .inl ⟨⟨.accepted, payment, bitcoin, usdt⟩, a, b, rfl⟩
    | rejected => exact .inl ⟨⟨.rejected, payment, bitcoin, usdt⟩, a, b, rfl⟩
    | canceled => exact .inl ⟨⟨.canceled, payment, bitcoin, usdt⟩, a, b, rfl⟩
    | proofSubmitted => exact .inl ⟨⟨.proofSubmitted, payment, bitcoin, usdt⟩, a, b, rfl⟩
    | activeRecurring => exact .inl ⟨⟨.activeRecurring, payment, bitcoin, usdt⟩, a, b, rfl⟩

end PubkyLocks
