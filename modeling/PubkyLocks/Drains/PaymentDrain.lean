/-
  The aggregate of a payment drain: the counts Paykit reports for the payments
  of a lock that is being deleted, as `infrastructure/postgres/payment_drains.rs`
  stores them and as the drain of `use_cases/drain_lock_payments.rs` checks them.

  Three predicates say which summary may follow the stored one:
  `validate_aggregate_progress` of the use case, `valid_aggregate_progress` of
  `store_payment_drain`, and the WHERE clause of `reconcile_payment_drain`.  The
  first two subtract unsigned numbers and look for a borrow, the third subtracts
  `BIGINT` columns.
-/
import PubkyLocks.Lib.Runs
import PubkyLocks.Lanes.Deletion

namespace PubkyLocks

open Checks

/-! ## Summaries -/

inductive PaymentDrainStatus where
  | active
  | completed
deriving DecidableEq, Repr

namespace PaymentDrainCleanupToken

/-- The value of a character of the URL-safe base64 alphabet. -/
def base64Value? (c : Char) : Option ℕ :=
  if 'A' ≤ c ∧ c ≤ 'Z' then some (c.toNat - 'A'.toNat)
  else if 'a' ≤ c ∧ c ≤ 'z' then some (c.toNat - 'a'.toNat + 26)
  else if '0' ≤ c ∧ c ≤ '9' then some (c.toNat - '0'.toNat + 52)
  else if c = '-' then some 62
  else if c = '_' then some 63
  else none

/-- `URL_SAFE_NO_PAD` decodes the text to 32 bytes: 43 digits, of which the last
    has no bits beyond them. -/
def isCanonical (value : List Char) : Bool :=
  value.length == 43 && value.all (fun c => (base64Value? c).isSome) &&
    ((value.getLast?.bind base64Value?).any fun v => v % 4 == 0)

end PaymentDrainCleanupToken

/-- A `PaymentDrainCleanupToken`: a text that `parse` accepts. -/
structure PaymentDrainCleanupToken where
  value : String
  canonical : PaymentDrainCleanupToken.isCanonical value.toList
deriving DecidableEq

structure PaymentDrainSummary where
  status : PaymentDrainStatus
  acceptedCount : UInt64
  terminalCount : UInt64
  cancellationEnqueuedCount : UInt64
  cleanupToken : PaymentDrainCleanupToken
deriving DecidableEq

def checkedSub (a b : UInt64) : Option UInt64 := if b ≤ a then some (a - b) else none

def validateAggregateProgress (persisted current : PaymentDrainSummary) :
    Except ApplicationError Unit :=
  let acceptedDelta := checkedSub persisted.acceptedCount current.acceptedCount
  let terminalDelta := checkedSub current.terminalCount persisted.terminalCount
  refuse (persisted.cleanupToken ≠ current.cleanupToken ∨
      persisted.cancellationEnqueuedCount ≠ current.cancellationEnqueuedCount ∨
      acceptedDelta.isNone ∨ terminalDelta.isNone ∨ acceptedDelta ≠ terminalDelta ∨
      (current.status = .completed ∧ current.acceptedCount ≠ 0) ∨
      (current.status = .active ∧ current.acceptedCount = 0) ∨
      (persisted.status = .completed ∧ current.status ≠ .completed))
    (.invalidContentLockDeletionState
      "Paykit payment drain aggregate changed incompatibly for deletion job")

def validAggregateProgress (previous current : PaymentDrainSummary) : Bool :=
  let acceptedDelta := checkedSub previous.acceptedCount current.acceptedCount
  let terminalDelta := checkedSub current.terminalCount previous.terminalCount
  previous.cleanupToken == current.cleanupToken &&
    previous.cancellationEnqueuedCount == current.cancellationEnqueuedCount &&
    acceptedDelta.isSome && acceptedDelta == terminalDelta &&
    !(previous.status == .completed && current.status != .completed) &&
    ((current.status == .completed && current.acceptedCount == 0) ||
      (current.status == .active && 0 < current.acceptedCount))

/-! ## The table -/

/-- A `BIGINT` column that a CHECK keeps from being negative. -/
structure CountColumn where
  value : ℤ
  nonneg : 0 ≤ value
  fits : value < 2 ^ 63
deriving DecidableEq

/-- `i64::try_from` on a count. -/
def CountColumn.ofU64 (n : UInt64) : Except ApplicationError CountColumn :=
  if h : n.toNat < 2 ^ 63 then .ok ⟨n.toNat, Int.natCast_nonneg _, by exact_mod_cast h⟩
  else .error (.storage "out of range integral type conversion attempted")

def CountColumn.toU64 (c : CountColumn) : UInt64 := .ofNat c.value.toNat

structure PaymentDrainRow where
  status : PaymentDrainStatus
  acceptedCount : CountColumn
  terminalCount : CountColumn
  cancellationEnqueuedCount : CountColumn
  cleanupToken : PaymentDrainCleanupToken
deriving DecidableEq

/-- `row_to_summary`; the texts of the row are those of valid values. -/
def PaymentDrainRow.toSummary (r : PaymentDrainRow) : PaymentDrainSummary :=
  ⟨r.status, r.acceptedCount.toU64, r.terminalCount.toU64, r.cancellationEnqueuedCount.toU64,
    r.cleanupToken⟩

/-- The summary with its counts as columns, `summary_counts`. -/
def PaymentDrainSummary.toRow (s : PaymentDrainSummary) :
    Except ApplicationError PaymentDrainRow := do
  let accepted ← CountColumn.ofU64 s.acceptedCount
  let terminal ← CountColumn.ofU64 s.terminalCount
  let cancellation ← CountColumn.ofU64 s.cancellationEnqueuedCount
  pure ⟨s.status, accepted, terminal, cancellation, s.cleanupToken⟩

/-- The update of the stored aggregate. -/
def PaymentDrainRow.progress (stored incoming : PaymentDrainRow) : PaymentDrainRow :=
  { stored with
    status := incoming.status
    acceptedCount := incoming.acceptedCount
    terminalCount := incoming.terminalCount }

/-- The WHERE clause of `reconcile_payment_drain`; the differences of two
    columns fit a `BIGINT`. -/
def PaymentDrainRow.reconciles (stored incoming : PaymentDrainRow) : Bool :=
  stored.cleanupToken == incoming.cleanupToken &&
    stored.cancellationEnqueuedCount == incoming.cancellationEnqueuedCount &&
    incoming.acceptedCount.value ≤ stored.acceptedCount.value &&
    stored.terminalCount.value ≤ incoming.terminalCount.value &&
    stored.acceptedCount.value - incoming.acceptedCount.value ==
      incoming.terminalCount.value - stored.terminalCount.value &&
    !(stored.status == .completed && incoming.status != .completed) &&
    ((incoming.status == .completed && incoming.acceptedCount.value == 0) ||
      (incoming.status == .active && 0 < incoming.acceptedCount.value))

/-- The result of a call, with the row of the job after it. -/
abbrev PaymentDrainResult := Except ApplicationError (Bool × Option PaymentDrainRow)

def storePaymentDrain (job : Option DeletionJob) (stored : Option PaymentDrainRow) (l : JobLease)
    (summary : PaymentDrainSummary) (now : Timestamp) : PaymentDrainResult := do
  let incoming ← summary.toRow
  if !job.any (·.ownsLiveDrainClaim l.workerId l.claimToken now .startPaymentDrain) then
    return (false, stored)
  match stored with
  | some existing =>
    refuse (!validAggregateProgress existing.toSummary summary)
      (.invalidContentLockDeletionState "Paykit payment drain aggregate changed for deletion job")
    return (true, some (existing.progress incoming))
  | none => return (true, some incoming)

def reconcilePaymentDrain (job : Option DeletionJob) (stored : Option PaymentDrainRow)
    (l : JobLease) (summary : PaymentDrainSummary) (now : Timestamp) : PaymentDrainResult := do
  let incoming ← summary.toRow
  if !job.any (·.ownsLiveDrainClaim l.workerId l.claimToken now .drainPayments) then
    return (false, stored)
  if stored.any (·.reconciles incoming) then
    return (true, stored.map (·.progress incoming))
  return (false, stored)

/-- A call for one job; `job` is the row of the job when it is locked. -/
inductive PaymentDrainCall where
  | store (job : Option DeletionJob) (l : JobLease) (summary : PaymentDrainSummary)
      (now : Timestamp)
  | reconcile (job : Option DeletionJob) (l : JobLease) (summary : PaymentDrainSummary)
      (now : Timestamp)

namespace PaymentDrainCall

def run (stored : Option PaymentDrainRow) : PaymentDrainCall → PaymentDrainResult
  | store job l summary now => storePaymentDrain job stored l summary now
  | reconcile job l summary now => reconcilePaymentDrain job stored l summary now

/-- The aggregate after the call; an error rolls it back. -/
def after (stored : Option PaymentDrainRow) (call : PaymentDrainCall) : Option PaymentDrainRow :=
  match call.run stored with
  | .ok (_, stored) => stored
  | .error _ => stored

def Step (stored : Option PaymentDrainRow) (call : PaymentDrainCall)
    (stored' : Option PaymentDrainRow) : Prop :=
  stored' = call.after stored

end PaymentDrainCall

/-! ## The predicates -/

/-- How an aggregate of a job relates to a later one: payments have left the
    accepted ones for the ended ones, and nothing else has changed. -/
structure PaymentDrainRow.Continues (stored later : PaymentDrainRow) : Prop where
  token : stored.cleanupToken = later.cleanupToken
  cancellation : stored.cancellationEnqueuedCount = later.cancellationEnqueuedCount
  accepted : later.acceptedCount.value ≤ stored.acceptedCount.value
  total : later.acceptedCount.value + later.terminalCount.value =
    stored.acceptedCount.value + stored.terminalCount.value
  absorbing : stored.status = .completed → later.status = .completed

/-- The drain is completed exactly if no accepted payment is left. -/
def PaymentDrainRow.Settled (r : PaymentDrainRow) : Prop :=
  r.status = .completed ↔ r.acceptedCount.value = 0

structure PaymentDrainRow.Follows (stored incoming : PaymentDrainRow) : Prop
    extends stored.Continues incoming where
  settled : incoming.Settled

namespace CountColumn

@[ext]
theorem ext {c d : CountColumn} (h : c.value = d.value) : c = d := by
  cases c
  cases d
  simpa using h

theorem toNat_toU64 (c : CountColumn) : (c.toU64.toNat : ℤ) = c.value := by
  have hlt : c.value.toNat < 2 ^ 64 := by
    have := c.fits
    omega
  rw [toU64, UInt64.toNat_ofNat', Nat.mod_eq_of_lt hlt, Int.toNat_of_nonneg c.nonneg]

theorem toU64_inj {c d : CountColumn} : c.toU64 = d.toU64 ↔ c = d := by
  rw [← UInt64.toNat_inj, CountColumn.ext_iff, ← c.toNat_toU64, ← d.toNat_toU64]
  norm_cast

theorem toU64_eq_zero {c : CountColumn} : c.toU64 = 0 ↔ c.value = 0 := by
  rw [← UInt64.toNat_inj, ← c.toNat_toU64, UInt64.toNat_zero]
  norm_cast

theorem ofU64_eq_ok {n : UInt64} {c : CountColumn} : ofU64 n = .ok c ↔ c.toU64 = n := by
  unfold ofU64
  constructor
  · intro h
    split at h
    · cases h
      exact UInt64.ofNat_toNat
    · cases h
  · rintro rfl
    have hval := c.toNat_toU64
    have hfits : c.toU64.toNat < 2 ^ 63 := by
      have := c.fits
      omega
    rw [dif_pos hfits]
    exact congrArg Except.ok (CountColumn.ext hval)

theorem exists_toU64 {n : UInt64} (h : n.toNat < 2 ^ 63) : ∃ c : CountColumn, c.toU64 = n :=
  ⟨⟨n.toNat, Int.natCast_nonneg _, by exact_mod_cast h⟩, UInt64.ofNat_toNat⟩

end CountColumn

theorem deltas_iff {a b c d : UInt64} : (checkedSub a b).isSome ∧ checkedSub a b = checkedSub c d ↔
      b.toNat ≤ a.toNat ∧ b.toNat + c.toNat = a.toNat + d.toNat := by
  unfold checkedSub
  simp only [UInt64.le_iff_toNat_le]
  split
  · rename_i hab
    split
    · rename_i hcd
      rw [Option.some.injEq, ← UInt64.toNat_inj,
        UInt64.toNat_sub_of_le _ _ (UInt64.le_iff_toNat_le.2 hab),
        UInt64.toNat_sub_of_le _ _ (UInt64.le_iff_toNat_le.2 hcd)]
      simp only [Option.isSome_some, true_and]
      omega
    · simp only [reduceCtorEq, and_false, false_iff]
      omega
  · simp only [Option.isSome_none, Bool.false_eq_true, false_and, false_iff]
    omega

theorem settled_status_iff {status : PaymentDrainStatus} {n : ℤ} (hn : 0 ≤ n) :
    (status = .completed ∧ n = 0) ∨ (status = .active ∧ 0 < n) ↔
      (status = .completed ↔ n = 0) := by
  cases status with
  | active =>
    simp only [reduceCtorEq, false_and, true_and, false_or, false_iff]
    omega
  | completed => simp

namespace PaymentDrainRow

variable {stored incoming : PaymentDrainRow}

theorem reconciles_iff : stored.reconciles incoming ↔ stored.Follows incoming := by
  have hset := @settled_status_iff incoming.status _ incoming.acceptedCount.nonneg
  simp only [reconciles, Bool.and_eq_true, Bool.or_eq_true, beq_iff_eq, decide_eq_true_eq,
    Bool.not_eq_true', Bool.and_eq_false_iff, beq_eq_false_iff_ne, bne_eq_false_iff_eq, ne_eq]
  rw [hset]
  constructor
  · rintro ⟨⟨⟨⟨⟨⟨htok, hcan⟩, hacc⟩, -⟩, hdel⟩, habs⟩, hset⟩
    refine ⟨⟨htok, hcan, hacc, by omega, fun hc => ?_⟩, hset⟩
    exact habs.resolve_left (not_not_intro hc)
  · intro h
    have htotal := h.total
    have hacc := h.accepted
    refine ⟨⟨⟨⟨⟨⟨h.token, h.cancellation⟩, hacc⟩, by omega⟩, by omega⟩, ?_⟩, h.settled⟩
    by_cases hc : stored.status = .completed
    · exact .inr (h.absorbing hc)
    · exact .inl hc

theorem deltas_toU64 : (checkedSub stored.acceptedCount.toU64 incoming.acceptedCount.toU64).isSome ∧
        checkedSub stored.acceptedCount.toU64 incoming.acceptedCount.toU64 =
          checkedSub incoming.terminalCount.toU64 stored.terminalCount.toU64 ↔
      incoming.acceptedCount.value ≤ stored.acceptedCount.value ∧
        incoming.acceptedCount.value + incoming.terminalCount.value =
          stored.acceptedCount.value + stored.terminalCount.value := by
  rw [deltas_iff]
  have h₁ := stored.acceptedCount.toNat_toU64
  have h₂ := stored.terminalCount.toNat_toU64
  have h₃ := incoming.acceptedCount.toNat_toU64
  have h₄ := incoming.terminalCount.toNat_toU64
  omega

theorem validAggregateProgress_iff :
    validAggregateProgress stored.toSummary incoming.toSummary ↔ stored.Follows incoming := by
  have hpos : 0 < incoming.acceptedCount.toU64 ↔ 0 < incoming.acceptedCount.value := by
    have := incoming.acceptedCount.toNat_toU64
    rw [UInt64.lt_iff_toNat_lt, UInt64.toNat_zero]
    omega
  have hset := @settled_status_iff incoming.status _ incoming.acceptedCount.nonneg
  have hdel := @deltas_toU64 stored incoming
  simp only [validAggregateProgress, toSummary, Bool.and_eq_true, Bool.or_eq_true, beq_iff_eq,
    decide_eq_true_eq, Bool.not_eq_true', Bool.and_eq_false_iff, beq_eq_false_iff_ne,
    bne_eq_false_iff_eq, ne_eq, CountColumn.toU64_inj, CountColumn.toU64_eq_zero, hpos, hset]
  constructor
  · rintro ⟨⟨⟨⟨⟨htok, hcan⟩, hsome⟩, heq⟩, habs⟩, hset⟩
    obtain ⟨hacc, htotal⟩ := hdel.1 ⟨hsome, heq⟩
    exact ⟨⟨htok, hcan, hacc, htotal, fun hc => habs.resolve_left (not_not_intro hc)⟩, hset⟩
  · intro h
    obtain ⟨hsome, heq⟩ := hdel.2 ⟨h.accepted, h.total⟩
    refine ⟨⟨⟨⟨⟨h.token, h.cancellation⟩, hsome⟩, heq⟩, ?_⟩, h.settled⟩
    by_cases hc : stored.status = .completed
    · exact .inr (h.absorbing hc)
    · exact .inl hc

end PaymentDrainRow

theorem validateAggregateProgress_isOk {previous current : PaymentDrainSummary} :
    (validateAggregateProgress previous current).isOk ↔ validAggregateProgress previous current := by
  have hpos : ¬ current.acceptedCount = 0 ↔ 0 < current.acceptedCount := by
    rw [← UInt64.toNat_inj, UInt64.lt_iff_toNat_lt, UInt64.toNat_zero]
    omega
  have hnone : ∀ o : Option UInt64, ¬ o.isNone = true ↔ o.isSome = true := by
    intro o
    cases o <;> simp
  rw [isOk_iff]
  simp only [validateAggregateProgress, refuse_eq_ok, not_or, not_and, not_not, exists_const,
    ne_eq, hnone]
  simp only [validAggregateProgress, Bool.and_eq_true, Bool.or_eq_true, beq_iff_eq,
    decide_eq_true_eq, Bool.not_eq_true', Bool.and_eq_false_iff, beq_eq_false_iff_ne,
    bne_eq_false_iff_eq, ne_eq]
  constructor
  · rintro ⟨htok, hcan, hsome, -, heq, hzero, hact, habs⟩
    refine ⟨⟨⟨⟨⟨htok, hcan⟩, hsome⟩, heq⟩, not_or_of_imp habs⟩, ?_⟩
    cases hs : current.status with
    | active => exact .inr ⟨rfl, hpos.1 (hact hs)⟩
    | completed => exact .inl ⟨rfl, hzero hs⟩
  · rintro ⟨⟨⟨⟨⟨htok, hcan⟩, hsome⟩, heq⟩, habs⟩, hset⟩
    refine ⟨htok, hcan, hsome, heq ▸ hsome, heq, fun hs => ?_, fun hs => ?_,
      fun hc => habs.resolve_left (not_not_intro hc)⟩
    · rcases hset with h | h
      · exact h.2
      · cases hs.symm.trans h.1
    · rcases hset with h | h
      · cases hs.symm.trans h.1
      · exact hpos.2 h.2

/-! ## Runs -/

/-- The counts of the summary fit an `i64`. -/
def PaymentDrainSummary.Representable (s : PaymentDrainSummary) : Prop :=
  s.acceptedCount.toNat < 2 ^ 63 ∧ s.terminalCount.toNat < 2 ^ 63 ∧
    s.cancellationEnqueuedCount.toNat < 2 ^ 63

theorem PaymentDrainSummary.toRow_eq_ok {s : PaymentDrainSummary} {r : PaymentDrainRow} :
    s.toRow = .ok r ↔ r.toSummary = s := by
  obtain ⟨status, accepted, terminal, cancellation, token⟩ := r
  obtain ⟨status', a, t, c, token'⟩ := s
  simp only [toRow, bind_eq_ok, CountColumn.ofU64_eq_ok, pure_eq_ok,
    PaymentDrainRow.mk.injEq, PaymentDrainRow.toSummary, PaymentDrainSummary.mk.injEq]
  constructor
  · rintro ⟨_, rfl, _, rfl, _, rfl, rfl, rfl, rfl, rfl, rfl⟩
    exact ⟨rfl, rfl, rfl, rfl, rfl⟩
  · rintro ⟨rfl, rfl, rfl, rfl, rfl⟩
    exact ⟨_, rfl, _, rfl, _, rfl, rfl, rfl, rfl, rfl, rfl⟩

theorem PaymentDrainSummary.Representable.toRow {s : PaymentDrainSummary} (h : s.Representable) :
    ∃ r, s.toRow = .ok r := by
  obtain ⟨ha, ht, hc⟩ := h
  obtain ⟨accepted, ha⟩ := CountColumn.exists_toU64 ha
  obtain ⟨terminal, ht⟩ := CountColumn.exists_toU64 ht
  obtain ⟨cancellation, hc⟩ := CountColumn.exists_toU64 hc
  refine ⟨⟨s.status, accepted, terminal, cancellation, s.cleanupToken⟩,
    PaymentDrainSummary.toRow_eq_ok.2 ?_⟩
  rw [PaymentDrainRow.toSummary, ha, ht, hc]

namespace PaymentDrainRow

variable {first stored incoming : PaymentDrainRow}

theorem Continues.refl (r : PaymentDrainRow) : r.Continues r :=
  ⟨rfl, rfl, le_refl _, rfl, id⟩

theorem Continues.trans {later : PaymentDrainRow} (h : first.Continues stored)
    (h' : stored.Continues later) : first.Continues later where
  token := h.token.trans h'.token
  cancellation := h.cancellation.trans h'.cancellation
  accepted := h'.accepted.trans h.accepted
  total := h'.total.trans h.total
  absorbing hc := h'.absorbing (h.absorbing hc)

theorem Follows.progress (h : stored.Follows incoming) : stored.progress incoming = incoming := by
  obtain ⟨status, accepted, terminal, cancellation, token⟩ := stored
  obtain ⟨status', accepted', terminal', cancellation', token'⟩ := incoming
  have htok : token = token' := h.token
  have hcan : cancellation = cancellation' := h.cancellation
  rw [PaymentDrainRow.progress, htok, hcan]

end PaymentDrainRow

variable {job : Option DeletionJob} {stored incoming : PaymentDrainRow} {l : JobLease}
  {summary : PaymentDrainSummary} {now : Timestamp} {b : Bool} {row : Option PaymentDrainRow}

/-- A call leaves the stored aggregate or writes one that may follow it. -/
def Answers (stored : PaymentDrainRow) (b : Bool) (row : Option PaymentDrainRow) : Prop :=
  (b = false ∧ row = some stored) ∨
    ∃ incoming, b = true ∧ row = some incoming ∧ stored.Follows incoming

theorem storePaymentDrain_answers
    (h : storePaymentDrain job (some stored) l summary now = .ok (b, row)) :
    Answers stored b row := by
  obtain ⟨incoming, hin, h⟩ := bind_eq_ok.1 h
  rw [PaymentDrainSummary.toRow_eq_ok] at hin
  subst hin
  split at h
  · cases h
    exact .inl ⟨rfl, rfl⟩
  · obtain ⟨_, hvalid, h⟩ := bind_eq_ok.1 h
    simp only [refuse_eq_ok, Bool.not_eq_true', Bool.not_eq_false] at hvalid
    have hf := PaymentDrainRow.validAggregateProgress_iff.1 hvalid
    rw [hf.progress] at h
    cases h
    exact .inr ⟨incoming, rfl, rfl, hf⟩

theorem reconcilePaymentDrain_answers
    (h : reconcilePaymentDrain job (some stored) l summary now = .ok (b, row)) :
    Answers stored b row := by
  obtain ⟨incoming, -, h⟩ := bind_eq_ok.1 h
  split at h
  · cases h
    exact .inl ⟨rfl, rfl⟩
  · split at h
    · rename_i hrec
      have hf := PaymentDrainRow.reconciles_iff.1 hrec
      rw [Option.map_some, hf.progress] at h
      cases h
      exact .inr ⟨incoming, rfl, rfl, hf⟩
    · cases h
      exact .inl ⟨rfl, rfl⟩

theorem PaymentDrainCall.run_answers {call : PaymentDrainCall}
    (h : call.run (some stored) = .ok (b, row)) : Answers stored b row := by
  cases call with
  | store => exact storePaymentDrain_answers h
  | reconcile => exact reconcilePaymentDrain_answers h

/-- What holds of the aggregate of a job whose first one was `first`. -/
def Accounted (first : PaymentDrainRow) (s : Option PaymentDrainRow) : Prop :=
  ∃ row, s = some row ∧ first.Continues row ∧ (row = first ∨ row.Settled)

theorem accounted_step {first : PaymentDrainRow} {s t : Option PaymentDrainRow}
    {call : PaymentDrainCall} (h : Accounted first s) (hs : PaymentDrainCall.Step s call t) :
    Accounted first t := by
  obtain ⟨row, rfl, hcont, hset⟩ := h
  rw [PaymentDrainCall.Step, PaymentDrainCall.after] at hs
  split at hs
  · rename_i hrun
    subst hs
    rcases PaymentDrainCall.run_answers hrun with ⟨-, rfl⟩ | ⟨incoming, -, rfl, hf⟩
    · exact ⟨row, rfl, hcont, hset⟩
    · exact ⟨incoming, rfl, hcont.trans hf.toContinues, .inr hf.settled⟩
  · exact ⟨row, hs, hcont, hset⟩

theorem progress_agrees (hrep : summary.Representable) : ∃ incoming, summary.toRow = .ok incoming ∧
      ((validateAggregateProgress stored.toSummary summary).isOk ↔ stored.reconciles incoming) ∧
      (validAggregateProgress stored.toSummary summary ↔ stored.reconciles incoming) := by
  obtain ⟨incoming, hin⟩ := hrep.toRow
  have hsum := PaymentDrainSummary.toRow_eq_ok.1 hin
  have hvalid : validAggregateProgress stored.toSummary summary ↔ stored.reconciles incoming := by
    rw [← hsum, PaymentDrainRow.validAggregateProgress_iff, PaymentDrainRow.reconciles_iff]
  exact ⟨incoming, hin, validateAggregateProgress_isOk.trans hvalid, hvalid⟩

theorem PaymentDrainCall.run_of_after {first : PaymentDrainRow} {call : PaymentDrainCall}
    (h : call.after none = some first) : call.run none = .ok (true, some first) := by
  unfold after at h
  split at h
  · rename_i written hrun
    subst h
    rw [hrun]
    cases call <;> obtain ⟨incoming, -, hrun⟩ := bind_eq_ok.1 hrun <;> split at hrun <;> cases hrun
    rfl
  · cases h

/-- A run without an aggregate, up to the call that stores the first one. -/
theorem first_of_run {calls : List PaymentDrainCall} {s : Option PaymentDrainRow}
    (h : Runs.Run PaymentDrainCall.Step none calls s) : s = none ∨
      ∃ before call after first, calls = before ++ call :: after ∧
        Runs.Run PaymentDrainCall.Step none before none ∧
        call.run none = .ok (true, some first) ∧
        Runs.Run PaymentDrainCall.Step (some first) after s := by
  induction h with
  | nil => exact .inl rfl
  | @snoc t w calls call hrun hs ih =>
    rcases ih with rfl | ⟨before, store, after, first, rfl, hbefore, hfirst, hafter⟩
    · cases w with
      | none => exact .inl rfl
      | some first =>
        have hfirst := PaymentDrainCall.run_of_after hs.symm
        exact .inr ⟨calls, call, [], first, rfl, hrun, hfirst, .nil _⟩
    · exact .inr ⟨before, store, after ++ [call], first, by simp, hbefore, hfirst, hafter.snoc hs⟩

section
variable {job : DeletionJob} {l : JobLease} {now : Timestamp}

theorem reconcilePaymentDrain_of_progress (hrep : summary.Representable)
    (hown : job.ownsLiveDrainClaim l.workerId l.claimToken now .drainPayments)
    (hvalid : (validateAggregateProgress stored.toSummary summary).isOk) :
    ∃ row, reconcilePaymentDrain (some job) (some stored) l summary now = .ok (true, some row) ∧
      row.toSummary = summary := by
  obtain ⟨incoming, hin, hval, -⟩ := @progress_agrees stored _ hrep
  have hrec := hval.1 hvalid
  have hf := PaymentDrainRow.reconciles_iff.1 hrec
  refine ⟨incoming, ?_, PaymentDrainSummary.toRow_eq_ok.1 hin⟩
  rw [reconcilePaymentDrain, hin]
  simp [bind, Except.bind, hown, hrec, hf.progress, pure, Except.pure]

theorem storePaymentDrain_of_progress {stored : Option PaymentDrainRow}
    (hrep : summary.Representable)
    (hown : job.ownsLiveDrainClaim l.workerId l.claimToken now .startPaymentDrain)
    (hvalid : ∀ existing, stored = some existing →
      validAggregateProgress existing.toSummary summary) :
    ∃ row, storePaymentDrain (some job) stored l summary now = .ok (true, some row) ∧
      row.toSummary = summary := by
  obtain ⟨incoming, hin⟩ := hrep.toRow
  refine ⟨incoming, ?_, PaymentDrainSummary.toRow_eq_ok.1 hin⟩
  rw [storePaymentDrain, hin]
  cases stored with
  | none => simp [bind, Except.bind, hown, pure, Except.pure]
  | some existing =>
    have hv := hvalid existing rfl
    have hf : existing.Follows incoming :=
      PaymentDrainRow.validAggregateProgress_iff.1 (PaymentDrainSummary.toRow_eq_ok.1 hin ▸ hv)
    simp [bind, Except.bind, hown, hv, hf.progress, refuse, pure, Except.pure]

end

/-- **Payment drain accounting.**  Along every run of calls the aggregates of a
    job continue the first one, which the run has stored if it began without one,
    and each accepted update leaves a settled one.  The three predicates accept the
    same updates of a stored aggregate, and a summary that they accept is written by
    the holder of the claim, as is the first one. -/
theorem drain_accounting :
    (∀ (first : PaymentDrainRow) (calls : List PaymentDrainCall) (s : Option PaymentDrainRow),
      Runs.Run PaymentDrainCall.Step (some first) calls s →
        ∃ row, s = some row ∧ first.Continues row ∧ (row = first ∨ row.Settled)) ∧
    (∀ (calls : List PaymentDrainCall) (s : Option PaymentDrainRow),
      Runs.Run PaymentDrainCall.Step none calls s → s = none ∨
        ∃ before call after first row, calls = before ++ call :: after ∧
          Runs.Run PaymentDrainCall.Step none before none ∧
          call.run none = .ok (true, some first) ∧
          Runs.Run PaymentDrainCall.Step (some first) after s ∧ s = some row ∧
          first.Continues row ∧ (row = first ∨ row.Settled)) ∧
    (∀ (stored : PaymentDrainRow) (call : PaymentDrainCall) (row : Option PaymentDrainRow),
      call.run (some stored) = .ok (true, row) → ∃ r, row = some r ∧ r.Settled) ∧
    (∀ (stored : PaymentDrainRow) (summary : PaymentDrainSummary), summary.Representable →
      ∃ incoming, summary.toRow = .ok incoming ∧
        ((validateAggregateProgress stored.toSummary summary).isOk ↔ stored.reconciles incoming) ∧
        (validAggregateProgress stored.toSummary summary ↔ stored.reconciles incoming)) ∧
    (∀ (job : DeletionJob) (stored : PaymentDrainRow) (l : JobLease)
        (summary : PaymentDrainSummary) (now : Timestamp), summary.Representable →
      job.ownsLiveDrainClaim l.workerId l.claimToken now .drainPayments →
      (validateAggregateProgress stored.toSummary summary).isOk →
      ∃ row, reconcilePaymentDrain (some job) (some stored) l summary now = .ok (true, some row) ∧
        row.toSummary = summary) ∧
    (∀ (job : DeletionJob) (stored : Option PaymentDrainRow) (l : JobLease)
        (summary : PaymentDrainSummary) (now : Timestamp), summary.Representable →
      job.ownsLiveDrainClaim l.workerId l.claimToken now .startPaymentDrain →
      (∀ existing, stored = some existing → validAggregateProgress existing.toSummary summary) →
      ∃ row, storePaymentDrain (some job) stored l summary now = .ok (true, some row) ∧
        row.toSummary = summary) := by
  have hcontinues : ∀ (first : PaymentDrainRow) (calls : List PaymentDrainCall)
      (s : Option PaymentDrainRow), Runs.Run PaymentDrainCall.Step (some first) calls s →
      Accounted first s := by
    intro first calls s hrun
    have h₀ : Accounted first (some first) := ⟨first, rfl, .refl first, .inl rfl⟩
    exact hrun.invariant (I := Accounted first) h₀ fun _ _ _ h hs => accounted_step h hs
  refine ⟨hcontinues, ?_, ?_, fun _ _ => progress_agrees,
    fun _ _ _ _ _ => reconcilePaymentDrain_of_progress,
    fun _ _ _ _ _ => storePaymentDrain_of_progress⟩
  · intro calls s hrun
    rcases first_of_run hrun with
      rfl | ⟨before, call, after, first, hcalls, hbefore, hfirst, hafter⟩
    · exact .inl rfl
    · obtain ⟨row, hrow⟩ := hcontinues first after s hafter
      exact .inr ⟨before, call, after, first, row, hcalls, hbefore, hfirst, hafter, hrow⟩
  · intro stored call row hrun
    rcases PaymentDrainCall.run_answers hrun with ⟨hb, -⟩ | ⟨incoming, -, rfl, hf⟩
    · cases hb
    · exact ⟨incoming, rfl, hf.settled⟩

def zeroCleanupToken : PaymentDrainCleanupToken :=
  ⟨"AAAAAAAAAAAAAAAAAAAAAAAAAAAAAAAAAAAAAAAAAAA", by decide⟩

/-- Two accepted payments and three ended ones are stored; both accepted ones end. -/
theorem drain_completed :
    let started : PaymentDrainSummary := ⟨.active, 2, 3, 1, zeroCleanupToken⟩
    let summary : PaymentDrainSummary := ⟨.completed, 0, 5, 1, zeroCleanupToken⟩
    let l : JobLease := ⟨⟨2⟩, "worker", ⟨3⟩⟩
    let job (phase : ContentLockDeletionPhase) : DeletionJob :=
      ⟨⟨2⟩, ⟨"creator"⟩, LockId.fromHash (.replicate 7), staticLock ⟨"creator"⟩, 0, .running, phase,
        1, none, none, none, some "worker", some ⟨3⟩, some 10⟩
    ∃ first, storePaymentDrain (some (job .startPaymentDrain)) none l started 4 =
        .ok (true, some first) ∧ first.toSummary = started ∧
      (∃ row, reconcilePaymentDrain (some (job .drainPayments)) (some first) l summary 5 =
        .ok (true, some row) ∧ row.toSummary = summary) ∧
      ∃ row, PaymentDrainCall.after (some first) (.reconcile (some (job .drainPayments)) l summary
          5) = some row ∧ first.Continues row ∧ (row = first ∨ row.Settled) := by
  intro started summary l job
  obtain ⟨hrun, -, -, -, hwrite, hstore⟩ := drain_accounting
  obtain ⟨first, hfirst, hstarted⟩ := hstore (job .startPaymentDrain) none l started 4
    ⟨by decide, by decide, by decide⟩ (by decide) (by rintro _ ⟨⟩)
  refine ⟨first, hfirst, hstarted, hwrite (job .drainPayments) first l summary 5
    ⟨by decide, by decide, by decide⟩ (by decide) ?_, hrun first [.reconcile _ l summary 5] _
      (.single rfl)⟩
  rw [hstarted]
  decide

end PubkyLocks
