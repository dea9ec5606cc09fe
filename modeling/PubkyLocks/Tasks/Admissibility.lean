/-
  Submissions that pass the checks of a version-2 lock can be admitted: the
  constraints of the lock (`locks-core/src/lock_policy.rs`), of the submission
  (`locks-core/src/verification.rs`) and of the snapshots of the lanes
  (`models/payment_v2.rs`, `models/graph0conf.rs`) are the same.
-/
import PubkyLocks.Tasks.GraphSnapshot
import PubkyLocks.Tasks.PaymentSnapshot

namespace PubkyLocks

open Checks PaymentTaskSnapshotV1

/-! ## Windows -/

/-- The times of an admission: a window of whole seconds in the allowed range
    from a time in microseconds on. -/
structure AdmissionWindow (acceptedAt : Timestamp) (window : ℕ) (deadlineAt : Timestamp) :
    Prop where
  micros : acceptedAt.isMicrosecond
  range : 60 ≤ window ∧ window ≤ 604800
  deadline : acceptedAt.checkedAdd (Duration.seconds window) = some deadlineAt

namespace AdmissionWindow

variable {acceptedAt deadlineAt : Timestamp} {window : ℕ}

section
variable (h : AdmissionWindow acceptedAt window deadlineAt)
include h

theorem deadline_eq : deadlineAt = acceptedAt + Duration.seconds window := by
  have hadd := h.deadline
  unfold Timestamp.checkedAdd at hadd
  split at hadd
  · exact (Option.some.inj hadd).symm
  · cases hadd

theorem length_eq : deadlineAt - acceptedAt = Duration.seconds window := by
  have hsub : ∀ a d : ℤ, a + d - a = d := by omega
  rw [h.deadline_eq]
  exact hsub acceptedAt _

theorem wholeSeconds_eq : Duration.wholeSeconds (deadlineAt - acceptedAt) = window := by
  rw [h.length_eq]
  exact Int.mul_tdiv_cancel _ (by decide)

theorem deadline_micros : deadlineAt.isMicrosecond := by
  have hmultiple : ∀ a n : ℤ, a % 1000 = 0 → (a + n * 1000000000) % 1000 = 0 := by omega
  rw [h.deadline_eq, Timestamp.isMicrosecond, beq_iff_eq]
  exact hmultiple acceptedAt window (beq_iff_eq.1 h.micros)

theorem le : acceptedAt ≤ deadlineAt := by
  have hle : ∀ a n : ℤ, 0 ≤ n → a ≤ a + n * 1000000000 := by omega
  rw [h.deadline_eq]
  exact hle acceptedAt window (Int.natCast_nonneg window)

theorem passes (e : String) : let length : Duration := deadlineAt - acceptedAt
    refuse (!(60 ≤ length.wholeSeconds && length.wholeSeconds ≤ 604800) ||
      length ≠ Duration.seconds length.wholeSeconds) e = .ok () := by
  obtain ⟨hlow, hhigh⟩ := h.range
  rw [refuse_eq_ok, h.wholeSeconds_eq, h.length_eq]
  simp
  omega

end

end AdmissionWindow

/-! ## The snapshots of the lanes -/

variable {acceptedAt deadlineAt : Timestamp} {window : ℕ} {hash : LockHash}

theorem PaymentPolicyV2.of_validate {policy : PaymentPolicyV2} {creator : CreatorPubky}
    (h : policy.validate creator = .ok ()) :
    policy.recipientPubky = creator ∧ policy.amount.toList.all Text.isAsciiDigit ∧
      (∃ n, Text.parseU64 policy.amount = some n ∧ n ≠ 0) ∧ policy.asset = "BTC" ∧
      policy.minimumConfirmations ≤ 6 := by
  unfold PaymentPolicyV2.validate at h
  cases hn : Text.parseU64 policy.amount with
  | none =>
    simp only [hn] at h
    split_ifs at h
    simp_all
  | some n =>
    simp only [hn] at h
    split_ifs at h with h₁ h₂ h₃ h₄
    simp only [Bool.or_eq_true, not_or, Bool.not_eq_true, Bool.not_eq_false'] at h₂
    refine ⟨not_not.1 h₁, h₂.1.2, ⟨n, rfl, ?_⟩, not_not.1 h₃, not_lt.1 h₄⟩
    simpa using h₂.2

def paymentAdmission (submitted : SubmittedProofBundleV2) (hash : LockHash)
    (policy : PaymentPolicyV2) (amountSats : ℕ) (reader : CreatorPubky)
    (acceptedAt deadlineAt : Timestamp) : PaymentTaskSnapshotV1 where
  schemaVersion := PAYMENT_TASK_SNAPSHOT_VERSION
  creator := submitted.pubkyLockResource.creator
  bundleId := submitted.bundleId
  submittedProofBundle := submitted
  pubkyLockResource := submitted.pubkyLockResource
  lockHash := hash
  reader := reader
  payment := ⟨policy.recipientPubky, policy.amount, amountSats, .btc, policy.minimumConfirmations⟩
  acceptedAt := acceptedAt
  deadlineAt := deadlineAt
  invoice := .pending
  providerStatus := none
  operationalFailureCount := 0
  operationalFailureTotal := 0
  operationalFirstFailureAt := none
  operationalLastFailureAt := none
  operationalLastCategory := none
  operationalLastHttpStatus := none
  nextDueAt := none
  root := .pending

theorem new_of_payment {submitted : SubmittedProofBundleV2} {policy : PaymentPolicyV2}
    {reader : CreatorPubky} (hw : AdmissionWindow acceptedAt window deadlineAt)
    (hpolicy : policy.validate submitted.pubkyLockResource.creator = .ok ())
    (hreader : submitted.readerPubky = some reader)
    (hlock : submitted.pubkyLockResource.lockId = LockId.fromHash hash) :
    ∃ n, Text.parseU64 policy.amount = some n ∧ policy.asset = "BTC" ∧
      new submitted hash policy acceptedAt window =
        .ok (paymentAdmission submitted hash policy n reader acceptedAt deadlineAt) ∧
      (paymentAdmission submitted hash policy n reader acceptedAt
        deadlineAt).validatePristineAdmission = .ok () := by
  obtain ⟨hrecipient, hdigits, ⟨n, hn, hpos⟩, hasset, hconfirmations⟩ :=
    PaymentPolicyV2.of_validate hpolicy
  obtain ⟨hlow, hhigh⟩ := hw.range
  have hvalid : (paymentAdmission submitted hash policy n reader acceptedAt
      deadlineAt).validatePristineAdmission = .ok () := by
    simp only [validatePristineAdmission, validate,
      seq_eq_ok]
    refine ⟨⟨rfl, ?_, hw.passes _, ?_, ?_, ?_, rfl, rfl, rfl, rfl⟩, rfl⟩
    · simp [refuse, paymentAdmission, hw.micros, hw.deadline_micros]
    · simp [refuse, paymentAdmission, hreader]
    · simp [refuse, paymentAdmission, hlock]
    · simpa [PaymentTermsV2.validate, paymentAdmission, hrecipient, hpos, hn, hconfirmations]
        using hdigits
  refine ⟨n, hn, hasset, ?_, hvalid⟩
  unfold new
  simp only [hreader, hn, hw.deadline, seq_eq_ok, refuse_eq_ok]
  refine ⟨by simp [hrecipient, hasset, hconfirmations], ?_, by omega, by simp [hlow, hhigh],
    hvalid, rfl⟩
  simpa [hpos] using hdigits

def graphAdmission (submitted : SubmittedProofBundleV2) (hash : LockHash) (policy : GraphPolicyV2)
    (reader : CreatorPubky) (acceptedAt deadlineAt : Timestamp) : GraphTaskSnapshotV1 where
  schemaVersion := GRAPH_TASK_SNAPSHOT_VERSION
  creator := submitted.pubkyLockResource.creator
  bundleId := submitted.bundleId
  pubkyLockResource := submitted.pubkyLockResource
  lockHash := hash
  reader := reader
  acceptedAt := acceptedAt
  deadlineAt := deadlineAt
  operator := policy.operator
  predicates := policy.predicates.map GraphPredicateState.new
  root := .pending

theorem new_of_graph {E : Externals} {submitted : SubmittedProofBundleV2} {policy : GraphPolicyV2}
    (reader : CreatorPubky) (hw : AdmissionWindow acceptedAt window deadlineAt)
    (hpolicy : policy.validate E = .ok ())
    (hlock : submitted.pubkyLockResource.lockId = LockId.fromHash hash) :
    GraphTaskSnapshotV1.new submitted.pubkyLockResource.creator submitted.bundleId
        submitted.pubkyLockResource hash reader acceptedAt window policy =
        .ok (graphAdmission submitted hash policy reader acceptedAt deadlineAt) ∧
      (graphAdmission submitted hash policy reader acceptedAt
        deadlineAt).validatePristineAdmission = .ok () := by
  simp only [GraphPolicyV2.validate, seq_eq_ok, refuse_eq_ok] at hpolicy
  obtain ⟨hlength, hoperator, hunique, -⟩ := hpolicy
  obtain ⟨hlow, hhigh⟩ := hw.range
  have hvalid : (graphAdmission submitted hash policy reader acceptedAt deadlineAt).validate =
      .ok () := by
    simp only [GraphTaskSnapshotV1.validate, seq_eq_ok]
    refine ⟨rfl, ?_, ?_, hw.passes _, ?_, ?_, ?_, ?_, ?_, ?_, ?_⟩
    · exact refuse_eq_ok.2 (not_lt.2 hw.le)
    · simp [refuse, graphAdmission, hw.micros, hw.deadline_micros]
    · simp [refuse, graphAdmission]
    · simp [refuse, graphAdmission, hlock]
    · simpa [refuse_eq_ok, graphAdmission] using hlength
    · simpa [refuse_eq_ok, graphAdmission] using hoperator
    · rw [refuse_eq_ok, graphAdmission, List.map_map]
      have hid : ((·.predicate) ∘ GraphPredicateState.new : GraphPredicateV2 → _) = id := rfl
      rwa [hid, List.map_id]
    · rw [checkAll_eq_ok]
      intro p hp
      obtain ⟨q, -, rfl⟩ := List.mem_map.1 hp
      rfl
    · simp [refuse, graphAdmission]
  refine ⟨?_, ?_⟩
  · unfold GraphTaskSnapshotV1.new
    simp only [hw.deadline, seq_eq_ok, refuse_eq_ok]
    exact ⟨by simp [hlow, hhigh], hvalid, rfl⟩
  · simp only [GraphTaskSnapshotV1.validatePristineAdmission, seq_eq_ok,
      refuse_eq_ok]
    refine ⟨hvalid, ?_⟩
    simp [graphAdmission, GraphPredicateState.new]

/-! ## Locks and submissions -/

/-- **Validated submissions are admissible.**  A submission that is accepted
    against a lock with one policy names its reader exactly if the lock has a
    payment; from a time in microseconds whose deadline does not overflow, the
    snapshot of the lane is built, pristine and pending, with the deadline and
    the policy of the lock. -/
theorem submissions_admissible (E : Externals) (lock : ContentLockV2)
    (submitted : SubmittedProofBundleV2) (acceptedAt deadlineAt : Timestamp)
    (hlock : lock.validate E = .ok ())
    (hsubmitted : validateContentLockSubmission E (.v2 lock) (.v2 submitted) = .ok ())
    (hmicros : acceptedAt.isMicrosecond)
    (hdeadline : acceptedAt.checkedAdd (Duration.seconds lock.verificationWindowSeconds) =
      some deadlineAt) :
    ∃ hash, lock.lockHash E = .ok hash ∧
      deadlineAt = acceptedAt + Duration.seconds lock.verificationWindowSeconds ∧
      (∀ policy, lock.payment = some policy → lock.graph = none →
        ∃ reader s n, submitted.readerPubky = some reader ∧
          PaymentTaskSnapshotV1.new submitted hash policy acceptedAt
            lock.verificationWindowSeconds = .ok s ∧
          s.validatePristineAdmission = .ok () ∧ s.root = .pending ∧ s.deadlineAt = deadlineAt ∧
          s.reader = reader ∧ Text.parseU64 policy.amount = some n ∧ policy.asset = "BTC" ∧
          s.payment =
            ⟨policy.recipientPubky, policy.amount, n, .btc, policy.minimumConfirmations⟩) ∧
      ∀ policy, lock.graph = some policy → lock.payment = none →
        submitted.readerPubky = none ∧ ∀ reader, ∃ s,
          GraphTaskSnapshotV1.new submitted.pubkyLockResource.creator submitted.bundleId
            submitted.pubkyLockResource hash reader acceptedAt lock.verificationWindowSeconds
            policy = .ok s ∧
          s.validatePristineAdmission = .ok () ∧ s.root = .pending ∧ s.deadlineAt = deadlineAt ∧
          s.reader = reader ∧ s.operator = policy.operator ∧
          s.predicates = policy.predicates.map GraphPredicateState.new := by
  obtain ⟨hcreator, hid⟩ := resource_of_submission hsubmitted
  obtain ⟨hash, hhash, hlockId⟩ := Checks.map_eq_ok.1 hid
  have hreader : lock.hasGraph = !submitted.readerPubky.isSome := by
    simp only [validateContentLockSubmission, Checks.bind_eq_ok] at hsubmitted
    obtain ⟨_, -, _, -, _, -, _, -, hmatch⟩ := hsubmitted
    revert hmatch
    cases lock.hasGraph <;> cases submitted.readerPubky.isSome <;> rintro ⟨⟩ <;> rfl
  simp only [ContentLockV2.validate, Checks.seq_eq_ok, Checks.refuse_eq_ok,
    Checks.onSome_eq_ok] at hlock
  obtain ⟨-, -, hwindow, -, hpayment, hgraph⟩ := hlock
  have hw : AdmissionWindow acceptedAt lock.verificationWindowSeconds deadlineAt :=
    ⟨hmicros, by simpa using hwindow, hdeadline⟩
  refine ⟨hash, hhash, hw.deadline_eq, fun policy hp hg => ?_, fun policy hg hp => ?_⟩
  · rw [ContentLockV2.hasGraph, hg, Option.isSome_none, eq_comm, Bool.not_eq_false'] at hreader
    obtain ⟨reader, hr⟩ := Option.isSome_iff_exists.1 hreader
    obtain ⟨n, hn, hasset, hnew, hpristine⟩ :=
      new_of_payment hw (hcreator ▸ hpayment policy hp) hr hlockId.symm
    exact ⟨reader, _, n, hr, hnew, hpristine, rfl, rfl, rfl, hn, hasset, rfl⟩
  · rw [ContentLockV2.hasGraph, hg, Option.isSome_some, eq_comm, Bool.not_eq_true',
      Option.isSome_eq_false_iff, Option.isNone_iff_eq_none] at hreader
    refine ⟨hreader, fun reader => ?_⟩
    obtain ⟨hnew, hpristine⟩ := new_of_graph reader hw (hgraph policy hg) hlockId.symm
    exact ⟨_, hnew, hpristine, rfl, rfl, rfl, rfl, rfl⟩

/-- A payment for ten minutes is admitted, and a follow that is asked for ten
    minutes. -/
theorem offered_submissions_admissible :
    (∃ s, PaymentTaskSnapshotV1.new paymentSubmission (.replicate 7)
        ⟨⟨"creator"⟩, "1000", "BTC", 1⟩ 0 600 = .ok s ∧ s.deadlineAt = Duration.seconds 600) ∧
      ∃ s, GraphTaskSnapshotV1.new ⟨"creator"⟩ ⟨"bundle"⟩ paymentSubmission.pubkyLockResource
        (.replicate 7) ⟨"reader"⟩ 0 600 ⟨[.follows .reader .creator], none⟩ = .ok s ∧
        s.deadlineAt = Duration.seconds 600 := by
  obtain ⟨hash, hhash, hd, hpayment, -⟩ := submissions_admissible (.constant (.replicate 7))
    paymentLock paymentSubmission 0 (Duration.seconds 600) rfl rfl rfl (by decide)
  obtain ⟨reader, s, n, -, hnew, -, -, hs, -⟩ := hpayment _ rfl rfl
  obtain ⟨hash', hhash', -, -, hgraph⟩ := submissions_admissible (.constant (.replicate 7))
    graphLock { paymentSubmission with readerPubky := none } 0 (Duration.seconds 600) rfl rfl rfl
    (by decide)
  obtain ⟨-, hgraph⟩ := hgraph _ rfl rfl
  obtain ⟨t, hnew', -, -, ht, -⟩ := hgraph ⟨"reader"⟩
  cases hhash
  cases hhash'
  exact ⟨⟨s, hnew, hs⟩, t, hnew', ht⟩

end PubkyLocks
