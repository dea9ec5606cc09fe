/-
  What a satisfied payment rests on.
-/
import PubkyLocks.Tasks.PaymentDecisions

namespace PubkyLocks

open PaymentTaskSnapshotV1 Checks PaymentWorkerAction

/-- The status carries the evidence `first` that the payment of the task is
    satisfied: an outpoint with the amount and the confirmations the task asks
    for, observed between the invoice and the deadline, in a request the reader
    accepted. -/
structure PaymentProviderStatus.Satisfies (status : PaymentProviderStatus) (first : PaymentSampleV2)
    (s : PaymentTaskSnapshotV1) : Prop where
  evidence : status.firstThresholdSatisfied = some first
  outpoint : first.outpoint.isSome
  amount : first.amountMatched
  confirmations : s.payment.minimumConfirmations ≤ first.confirmations
  observed : status.invoiceCreatedAt ≤ first.observedAt ∧ first.observedAt ≤ s.deadlineAt
  accepted : status.requestState.isAccepted
  creator : status.creator = s.creator
  bundleId : status.bundleId = s.bundleId
  deadline : status.deadline = s.deadlineAt
  threshold : status.minimumConfirmations = s.payment.minimumConfirmations

variable {status : PaymentProviderStatus} {s next : PaymentTaskSnapshotV1}
  {deadlineAt now : Timestamp} {a : PaymentWorkerAction}

theorem PaymentProviderStatus.satisfies_of_validateAgainst {first : PaymentSampleV2}
    (h : status.validateAgainst s = .ok ()) (hf : status.firstThresholdSatisfied = some first)
    (ha : status.requestState.isAccepted) : status.Satisfies first s := by
  simp only [validateAgainst, validate, seq_eq_ok, refuse_eq_ok,
    onSome_eq_ok] at h
  obtain ⟨⟨-, -, -, hfirst⟩, hbind, -⟩ := h
  obtain ⟨-, hinvalid⟩ := hfirst first hf
  simp only [not_or, not_not] at hbind
  obtain ⟨hcreator, hbundle, hdeadline, -, hmin⟩ := hbind
  simp only [thresholdInvalid, Bool.or_eq_true, decide_eq_true_eq, not_or, not_lt,
    Bool.not_eq_true', Bool.not_eq_false, gt_iff_lt] at hinvalid
  obtain ⟨hcreated, ⟨⟨⟨hout, hamount⟩, hconf⟩, hobs⟩, -⟩ := hinvalid
  exact
    { evidence := hf
      outpoint := by simpa [Option.isSome_iff_ne_none] using hout
      amount := hamount
      confirmations := hmin ▸ hconf
      observed := ⟨hcreated, hdeadline ▸ hobs⟩
      accepted := ha
      creator := hcreator
      bundleId := hbundle
      deadline := hdeadline
      threshold := hmin }

namespace PaymentTaskSnapshotV1

/-- A satisfied root comes with the provider status that satisfies it. -/
def Evidenced (s : PaymentTaskSnapshotV1) : Prop :=
  s.root = .satisfied → ∃ status first, s.providerStatus = some status ∧ status.Satisfies first s

theorem validateAgainst_of_validate
    (hv : s.validate = .ok ()) (hs : s.providerStatus = some status) :
    status.validateAgainst s = .ok () := by
  simp only [validate, seq_eq_ok, onSome_eq_ok] at hv
  obtain ⟨-, -, -, -, -, -, -, hstatus, -⟩ := hv
  exact (hstatus status hs).2

theorem evidenced_of_ne (h : s.root ≠ .satisfied) : s.Evidenced :=
  fun hs => absurd hs h

theorem evidenced_of_validate (hv : s.validate = .ok ()) (hs : s.providerStatus = some status)
    (hf : status.firstThresholdSatisfied.isSome) (ha : status.requestState.isAccepted) :
    s.Evidenced := by
  obtain ⟨first, hf⟩ := Option.isSome_iff_exists.1 hf
  exact fun _ => ⟨status, first, hs,
    PaymentProviderStatus.satisfies_of_validateAgainst (validateAgainst_of_validate hv hs) hf ha⟩

end PaymentTaskSnapshotV1

/-! ## The reducer -/

theorem evidence_of_reduceStatus (h : reduceStatus status deadlineAt now = .satisfied) :
    status.firstThresholdSatisfied.isSome ∧ status.requestState.isAccepted := by
  unfold reduceStatus at h
  by_cases hf : status.firstThresholdSatisfied.isSome
  · rw [if_pos hf] at h
    by_cases ha : status.requestState.isAccepted
    · exact ⟨hf, ha⟩
    · rw [if_neg ha] at h
      cases h
  · rw [if_neg hf] at h
    revert h
    cases status.requestState <;> cases status.paymentState <;> simp only [] <;>
      first
      | (intro h; cases h)
      | (split_ifs <;> intro h <;> cases h)

/-- **The reducer** keeps the provider status, and finds a payment satisfied
    only on evidence. -/
theorem reducePaymentSnapshot_evidence {s' : PaymentTaskSnapshotV1}
    (h : reducePaymentSnapshot s now = .ok s') (hs : s.Evidenced) :
    s'.Evidenced ∧ s'.providerStatus = s.providerStatus := by
  unfold reducePaymentSnapshot at h
  obtain ⟨-, -, h⟩ := bind_eq_ok.1 h
  split at h
  · cases h
    exact ⟨hs, rfl⟩
  · rename_i hroot
    split at h
    · obtain ⟨-, -, h⟩ := bind_eq_ok.1 h
      cases h
      split
      · exact ⟨evidenced_of_ne (by simp), rfl⟩
      · exact ⟨hs, rfl⟩
    · rename_i status hstatus
      obtain ⟨⟨⟩, hv, h⟩ := bind_eq_ok.1 h
      cases h
      refine ⟨fun hsat => ?_, rfl⟩
      obtain ⟨hf, ha⟩ := evidence_of_reduceStatus hsat
      exact evidenced_of_validate hv hstatus hf ha hsat

/-- The root that the reducer computes for a pending snapshot. -/
def PaymentTaskSnapshotV1.nextRoot (s : PaymentTaskSnapshotV1) (now : Timestamp) :
    PaymentRootState :=
  match s.providerStatus with
  | none => if now ≥ s.deadlineAt then .failed .verificationUnavailableByDeadline else .pending
  | some status => reduceStatus status s.deadlineAt now

theorem reducePaymentSnapshot_pending (hv : s.validate = .ok ()) (hp : s.root = .pending) :
    reducePaymentSnapshot s now = .ok { s with root := s.nextRoot now } := by
  have hroot : ∀ root, { s with root }.validate = .ok () := fun _ => hv
  have hsame : { s with root := .pending } = s := by rw [← hp]
  rw [reducePaymentSnapshot, seq_eq_ok, if_neg (not_not.2 hp),
    nextRoot]
  refine ⟨hv, ?_⟩
  cases hstatus : s.providerStatus with
  | some status =>
    rw [hstatus] at hroot
    dsimp only
    rw [seq_eq_ok, pure_eq_ok]
    exact ⟨hroot _, rfl⟩
  | none =>
    rw [hstatus] at hroot hsame
    dsimp only
    rw [seq_eq_ok, pure_eq_ok]
    by_cases hdue : now ≥ s.deadlineAt
    · rw [if_pos hdue, if_pos hdue]
      exact ⟨hroot _, rfl⟩
    · rw [if_neg hdue, if_neg hdue]
      exact ⟨hv, hsame.symm⟩

theorem reduceStatus_ne_pending
    (hproposal : status.proposalExpiresAt < deadlineAt) (hdue : now ≥ deadlineAt) :
    reduceStatus status deadlineAt now ≠ .pending := by
  have hlate : ¬ now < status.proposalExpiresAt := not_lt.2 (hproposal.le.trans hdue)
  unfold reduceStatus
  by_cases hf : status.firstThresholdSatisfied.isSome
  · rw [if_pos hf]
    split <;> simp
  · rw [if_neg hf]
    cases status.requestState <;> cases status.paymentState <;>
      simp [hdue, hlate, not_lt.2 hdue]

theorem reduceStatus_eq_satisfied : reduceStatus status deadlineAt now = .satisfied ↔
      status.firstThresholdSatisfied.isSome ∧ status.requestState.isAccepted := by
  refine ⟨evidence_of_reduceStatus, fun ⟨hf, ha⟩ => ?_⟩
  rw [reduceStatus, if_pos hf, if_pos ha]

theorem PaymentRequestStateV2.isAccepted_iff {r : PaymentRequestStateV2} :
    r.isAccepted ↔ r = .accepted ∨ r = .proofSubmitted ∨ r = .activeRecurring := by
  cases r <;> simp [isAccepted]

theorem PaymentTaskSnapshotV1.invoice_of_validate (hv : s.validate = .ok ())
    (hs : s.providerStatus = some status) :
    s.invoice = .created status.invoiceCreatedAt status.proposalExpiresAt ∧
      status.proposalExpiresAt < s.deadlineAt := by
  have hagainst := validateAgainst_of_validate hv hs
  simp only [PaymentProviderStatus.validateAgainst, PaymentProviderStatus.validate,
    seq_eq_ok, refuse_eq_ok, not_or, not_not, not_le, ge_iff_le] at hagainst
  obtain ⟨⟨-, ⟨-, hproposal, -⟩, -⟩, ⟨-, -, hdeadline, -⟩, hinvoice, -⟩ := hagainst
  refine ⟨?_, hdeadline ▸ hproposal⟩
  cases hi : s.invoice with
  | pending =>
    rw [hi] at hinvoice
    cases hinvoice
  | created a b =>
    rw [hi, PaymentProviderStatus.validateInvoice, refuse_eq_ok, not_or, not_not,
      not_not] at hinvoice
    rw [hinvoice.1, hinvoice.2]

/-- **The reduction** of a valid pending snapshot succeeds and changes the root
    only.  From the deadline on the root is not pending.  It is satisfied exactly
    if the stored status has threshold evidence in a request that the reader
    accepted, and then the evidence is a payment of the amount with enough
    confirmations, observed between the invoice and the deadline. -/
theorem payment_reduction (s : PaymentTaskSnapshotV1) (now : Timestamp)
    (hv : s.validate = .ok ()) (hp : s.root = .pending) :
    ∃ root, reducePaymentSnapshot s now = .ok { s with root } ∧
      (now ≥ s.deadlineAt → root ≠ .pending) ∧
      (root = .satisfied ↔ ∃ status, s.providerStatus = some status ∧
        status.firstThresholdSatisfied.isSome ∧ (status.requestState = .accepted ∨
          status.requestState = .proofSubmitted ∨ status.requestState = .activeRecurring)) ∧
      (root = .satisfied → ∃ status first created expires, s.providerStatus = some status ∧
        status.firstThresholdSatisfied = some first ∧ s.invoice = .created created expires ∧
        first.outpoint.isSome ∧ first.amountMatched ∧
        s.payment.minimumConfirmations ≤ first.confirmations ∧
        created ≤ first.observedAt ∧ first.observedAt ≤ s.deadlineAt) := by
  refine ⟨s.nextRoot now, reducePaymentSnapshot_pending hv hp, ?_⟩
  unfold nextRoot
  cases hstatus : s.providerStatus with
  | none =>
    dsimp only
    split <;> simp_all
  | some status =>
    obtain ⟨hinvoice, hproposal⟩ := invoice_of_validate hv hstatus
    refine ⟨reduceStatus_ne_pending hproposal, ?_, fun hsat => ?_⟩
    · rw [reduceStatus_eq_satisfied, PaymentRequestStateV2.isAccepted_iff]
      simp
    · obtain ⟨hf, ha⟩ := evidence_of_reduceStatus hsat
      obtain ⟨first, hfirst⟩ := Option.isSome_iff_exists.1 hf
      have hagainst := validateAgainst_of_validate hv hstatus
      have hsat := PaymentProviderStatus.satisfies_of_validateAgainst hagainst hfirst ha
      exact ⟨status, first, _, _, rfl, hfirst, hinvoice, hsat.outpoint, hsat.amount,
        hsat.confirmations, hsat.observed.1, hsat.observed.2⟩

def paidStatus : PaymentProviderStatus :=
  let sample : PaymentSampleV2 := ⟨Duration.seconds 3, .confirmed,
    some ⟨String.ofList (List.replicate 64 'a'), 0⟩, 1, true⟩
  ⟨⟨"creator"⟩, ⟨"bundle"⟩, .accepted, .confirmed, Duration.seconds 1, Duration.seconds 300,
    Duration.seconds 600, .btc, 1, some sample, some sample⟩

def paidSnapshot : PaymentTaskSnapshotV1 :=
  { admittedPaymentSnapshot with
    invoice := .created (Duration.seconds 1) (Duration.seconds 300)
    providerStatus := some paidStatus }

theorem paid_snapshot_satisfied :
    reducePaymentSnapshot paidSnapshot (Duration.seconds 6) =
      .ok { paidSnapshot with root := .satisfied } ∧
    ∃ first, paidStatus.firstThresholdSatisfied = some first ∧ first.outpoint.isSome ∧
      first.amountMatched ∧ paidSnapshot.payment.minimumConfirmations ≤ first.confirmations ∧
      Duration.seconds 1 ≤ first.observedAt ∧ first.observedAt ≤ paidSnapshot.deadlineAt := by
  obtain ⟨root, hroot, -, hsatisfied, hevidence⟩ := payment_reduction paidSnapshot
    (Duration.seconds 6) (by decide +kernel) rfl
  cases hsatisfied.2 ⟨paidStatus, rfl, rfl, .inl rfl⟩
  obtain ⟨status, first, created, expires, ⟨⟩, hfirst, ⟨⟩, hpayment⟩ := hevidence rfl
  exact ⟨hroot, first, hfirst, hpayment⟩

/-! ## The worker -/

/-- The provider status that `run_once` applies to a claimed snapshot. -/
def appliedStatus? (s : PaymentTaskSnapshotV1) (i : PaymentWorkerInput) :
    Option PaymentProviderStatus :=
  if s.root = .pending ∧ i.dispatchNow < s.deadlineAt ∧ s.invoice ≠ .pending then
    i.invoiceStatus.toOption.filter fun status => (s.applyStatus status).isOk
  else none

def StatusFrom (s : PaymentTaskSnapshotV1) (applied : Option PaymentProviderStatus)
    (s' : PaymentTaskSnapshotV1) : Prop :=
  s'.providerStatus = s.providerStatus ∨
    ∃ status, applied = some status ∧ s'.providerStatus = some status

theorem handleProviderError_evidence {e : PaymentProviderError} {observedAt : Timestamp}
    (h : handleProviderError s e observedAt = .ok a) (hp : s.root = .pending) :
    a.snapshot.Evidenced ∧ a.snapshot.providerStatus = s.providerStatus := by
  have hne : s.root ≠ .satisfied := by
    rw [hp]
    decide
  unfold handleProviderError at h
  split at h
  · cases h
    exact ⟨evidenced_of_ne (by simp [snapshot]), rfl⟩
  · cases h
    exact ⟨evidenced_of_ne (by simp [snapshot]), rfl⟩
  · dsimp only at h
    split_ifs at h
    · obtain ⟨s', hr, rfl⟩ := map_eq_ok.1 h
      have hreduced :=
        reducePaymentSnapshot_evidence hr (evidenced_of_ne hne)
      exact hreduced
    · cases h
      exact ⟨evidenced_of_ne hne, rfl⟩

theorem applyCreateResponse_status {a b c : Timestamp}
    (h : s.applyCreateResponse a b c = .ok next) : next.providerStatus = s.providerStatus := by
  unfold applyCreateResponse at h
  obtain ⟨-, -, h⟩ := bind_eq_ok.1 h
  obtain ⟨-, -, h⟩ := bind_eq_ok.1 h
  rw [← pure_eq_ok.1 h]

theorem applyStatus_status
    (h : s.applyStatus status = .ok next) : next.providerStatus = some status := by
  unfold applyStatus at h
  obtain ⟨-, -, h⟩ := bind_eq_ok.1 h
  obtain ⟨-, -, h⟩ := bind_eq_ok.1 h
  rw [← pure_eq_ok.1 h]

theorem onInvoiceCreated_evidence {c : PaymentCreated} (h : onInvoiceCreated s c now = .ok a)
    (hp : s.root = .pending) :
    a.snapshot.Evidenced ∧ a.snapshot.providerStatus = s.providerStatus := by
  unfold onInvoiceCreated at h
  split at h
  · cases h
    exact ⟨evidenced_of_ne (by simp [snapshot]), rfl⟩
  · rename_i next hn
    have hne : next.root ≠ .satisfied := by
      rw [applyCreateResponse_root hn, hp]
      decide
    split at h
    · obtain ⟨s', hr, rfl⟩ := map_eq_ok.1 h
      obtain ⟨he, hs⟩ :=
        reducePaymentSnapshot_evidence hr (evidenced_of_ne hne)
      exact ⟨he, hs.trans (applyCreateResponse_status hn)⟩
    · cases h
      exact ⟨evidenced_of_ne hne, applyCreateResponse_status hn⟩

theorem onInvoiceStatus_evidence (h : onInvoiceStatus s status now = .ok a)
    (hp : s.root = .pending) :
    a.snapshot.Evidenced ∧
      StatusFrom s (if (s.applyStatus status).isOk then some status else none) a.snapshot := by
  unfold onInvoiceStatus at h
  split at h
  · cases h
    exact ⟨evidenced_of_ne (by simp [snapshot]), .inl rfl⟩
  · rename_i next hn
    have hne : next.root ≠ .satisfied := by
      rw [applyStatus_root hn, hp]
      decide
    obtain ⟨s', hr, rfl⟩ := map_eq_ok.1 h
    obtain ⟨he, hs⟩ :=
      reducePaymentSnapshot_evidence hr (evidenced_of_ne hne)
    have hfrom : StatusFrom s (if (s.applyStatus status).isOk then some status else none) s' := by
      refine .inr ⟨status, if_pos ?_, hs.trans (applyStatus_status hn)⟩
      rw [hn]
      rfl
    split <;> exact ⟨he, hfrom⟩

/-- **The worker** satisfies a payment only on evidence, and the status it stores
    is the stored one or the one it has applied. -/
theorem paymentWorkerAction_evidence {i : PaymentWorkerInput} (h : paymentWorkerAction s i = .ok a)
    (hs : s.Evidenced) :
    a.snapshot.Evidenced ∧ StatusFrom s (appliedStatus? s i) a.snapshot := by
  unfold paymentWorkerAction at h
  split at h
  · cases h
    exact ⟨hs, .inl rfl⟩
  rename_i hroot
  have hroot := not_not.1 hroot
  split at h
  · obtain ⟨s', hr, rfl⟩ := map_eq_ok.1 h
    obtain ⟨he, hstatus⟩ := reducePaymentSnapshot_evidence hr hs
    exact ⟨he, .inl hstatus⟩
  rename_i hdeadline
  split at h
  · split at h
    · obtain ⟨he, hstatus⟩ := handleProviderError_evidence h hroot
      exact ⟨he, .inl hstatus⟩
    · obtain ⟨he, hstatus⟩ := onInvoiceCreated_evidence h hroot
      exact ⟨he, .inl hstatus⟩
  · rename_i hinvoice
    split at h
    · obtain ⟨he, hstatus⟩ := handleProviderError_evidence h hroot
      exact ⟨he, .inl hstatus⟩
    · rename_i status hstatus
      obtain ⟨he, hfrom⟩ := onInvoiceStatus_evidence h hroot
      refine ⟨he, ?_⟩
      rw [appliedStatus?, if_pos ⟨hroot, not_le.1 hdeadline, hinvoice⟩, hstatus]
      exact hfrom

/-! ## Progress -/

/-- What a later snapshot of a task keeps: the admission binding, the
    timestamps of the invoice, and the evidence. -/
structure PaymentTaskSnapshotV1.Progress (s s' : PaymentTaskSnapshotV1) : Prop where
  binding : s'.binding = s.binding
  invoice : s.invoice ≠ .pending → s'.invoice = s.invoice
  evidence : s.firstThreshold.isSome → s'.firstThreshold = s.firstThreshold

namespace PaymentTaskSnapshotV1

theorem Progress.refl (s : PaymentTaskSnapshotV1) : s.Progress s :=
    ⟨rfl, fun _ => rfl, fun _ => rfl⟩

theorem Progress.trans {s t u : PaymentTaskSnapshotV1} (h : s.Progress t) (h' : t.Progress u) :
    s.Progress u where
  binding := h'.binding.trans h.binding
  invoice := fun hs => by
    have ht := h.invoice hs
    rw [← ht]
    exact h'.invoice (ht ▸ hs)
  evidence := fun hs => by
    have ht := h.evidence hs
    rw [← ht]
    exact h'.evidence (ht ▸ hs)

theorem progress_of_validate {s s' : PaymentTaskSnapshotV1}
    (h : s'.validateProgressFrom s = .ok ()) : s'.validate = .ok () ∧ s.Progress s' := by
  simp only [validateProgressFrom, seq_eq_ok, refuse_eq_ok] at h
  obtain ⟨-, hv, -, hbind, hinv, hev, -⟩ := h
  rw [Bool.not_eq_true', Bool.not_eq_false, hasSameAdmissionBinding, beq_iff_eq] at hbind
  refine ⟨hv, hbind, fun hp => ?_, fun hf => ?_⟩
  · by_contra hne
    exact hinv ⟨hp, hne⟩
  · by_contra hne
    exact hev ⟨hf, fun heq => hne heq.symm⟩

end PaymentTaskSnapshotV1

end PubkyLocks
