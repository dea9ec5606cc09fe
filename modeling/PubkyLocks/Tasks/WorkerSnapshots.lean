/-
  The snapshots that payment workers hand to their repository
  (`locks-server/src/payment_worker.rs`) against the check it makes of them
  (`validate_progress_from` of `application/models/payment_v2.rs`), and the
  result for the workers of both lanes.
-/
import PubkyLocks.Tasks.GraphTicks
import PubkyLocks.Tasks.PaymentEvidence

namespace PubkyLocks

open PaymentTaskSnapshotV1 Checks PaymentWorkerAction

/-! ## Valid payment snapshots -/

namespace PaymentTaskSnapshotV1

variable {s t : PaymentTaskSnapshotV1}

theorem validateAggregate_eq_ok : s.validateAggregate = .ok () ↔
      (s.operationalFailureTotal = 0 ∧ s.operationalFailureCount = 0 ∧
        s.operationalFirstFailureAt = none ∧ s.operationalLastFailureAt = none ∧
        s.operationalLastCategory = none ∧ s.operationalLastHttpStatus = none) ∨
      (s.operationalFailureTotal ≠ 0 ∧ s.operationalFailureCount ≤ s.operationalFailureTotal ∧
        ∃ first last category, s.operationalFirstFailureAt = some first ∧
          s.operationalLastFailureAt = some last ∧ s.operationalLastCategory = some category ∧
          s.acceptedAt ≤ first ∧ first ≤ last ∧ last ≤ s.deadlineAt) := by
  unfold validateAggregate
  by_cases hzero : s.operationalFailureTotal = 0
  · rw [if_pos hzero]
    simp [hzero, and_assoc]
  · rw [if_neg hzero]
    cases s.operationalFirstFailureAt <;> cases s.operationalLastFailureAt <;>
      cases s.operationalLastCategory <;> simp [hzero]

section
variable (hv : s.validate = .ok ())
include hv

theorem aggregate_of_validate : s.validateAggregate = .ok () := by
  simp only [validate, seq_eq_ok] at hv
  obtain ⟨-, -, -, -, -, -, -, -, hagg, -⟩ := hv
  exact hagg

theorem due_of_validate : ∀ due, s.nextDueAt = some due → due ≤ s.deadlineAt := by
  intro due hdue
  simp only [validate, seq_eq_ok, refuse_eq_ok] at hv
  obtain ⟨-, -, -, -, -, -, -, -, -, hnext⟩ := hv
  rw [hdue] at hnext
  simpa using hnext

theorem validate_of_aggregate (ht : t = { s with
      operationalFailureCount := t.operationalFailureCount
      operationalFailureTotal := t.operationalFailureTotal
      operationalFirstFailureAt := t.operationalFirstFailureAt
      operationalLastFailureAt := t.operationalLastFailureAt
      operationalLastCategory := t.operationalLastCategory
      operationalLastHttpStatus := t.operationalLastHttpStatus
      nextDueAt := t.nextDueAt
      root := t.root })
    (hagg : t.validateAggregate = .ok ())
    (hdue : ∀ due, t.nextDueAt = some due → due ≤ s.deadlineAt) : t.validate = .ok () := by
  have hnext : ¬ (t.nextDueAt.any fun due => due > s.deadlineAt) = true := by
    cases h : t.nextDueAt with
    | none => simp
    | some due => simpa using hdue due h
  rw [ht] at hagg ⊢
  simp only [validate, seq_eq_ok, refuse_eq_ok] at hv ⊢
  obtain ⟨h₁, h₂, h₃, h₄, h₅, h₆, h₇, h₈, -, -⟩ := hv
  exact ⟨h₁, h₂, h₃, h₄, h₅, h₆, h₇, h₈, hagg, hnext⟩

theorem progress_of_kept (hp : s.root = .pending)
    (ht : t.validate = .ok ()) (hb : t.binding = s.binding)
    (hinvoice : s.invoice ≠ .pending → t.invoice = s.invoice)
    (hfirst : s.firstThreshold.isSome → s.firstThreshold = t.firstThreshold)
    (htotal : s.operationalFailureTotal ≤ t.operationalFailureTotal) :
    t.validateProgressFrom s = .ok () := by
  have hsame : t.hasSameAdmissionBinding s = true := beq_iff_eq.2 hb
  simp only [validateProgressFrom, seq_eq_ok, refuse_eq_ok]
  exact ⟨hv, ht, fun h => h.1 hp, by simp [hsame], fun h => h.2 (hinvoice h.1),
    fun h => h.2 (hfirst h.1), not_lt.2 htotal⟩

end

theorem progress_root (hp : s.root = .pending) (h : t.validateProgressFrom s = .ok ())
    (root : PaymentRootState) : { t with root }.validateProgressFrom s = .ok () := by
  simp only [validateProgressFrom, seq_eq_ok, refuse_eq_ok] at h ⊢
  obtain ⟨hv, ht, -, hrest⟩ := h
  exact ⟨hv, ht, fun hbad => hbad.1 hp, hrest⟩

theorem progress_refl (hv : s.validate = .ok ()) (hp : s.root = .pending) :
    s.validateProgressFrom s = .ok () :=
  progress_of_kept hv hp hv rfl (fun _ => rfl) (fun _ => rfl) le_rfl

theorem lt_deadline_of_nextRoot {now : Timestamp} (hv : s.validate = .ok ())
    (h : s.nextRoot now = .pending) : now < s.deadlineAt := by
  by_contra hdue
  rw [not_lt] at hdue
  unfold nextRoot at h
  cases hstatus : s.providerStatus with
  | none =>
    rw [hstatus] at h
    simp [hdue] at h
  | some status =>
    rw [hstatus] at h
    exact reduceStatus_ne_pending (invoice_of_validate hv hstatus).2 hdue h

end PaymentTaskSnapshotV1

/-! ## Payment ticks -/

/-- One clock for a tick and for what is stored: it does not run backwards, and
    it shows no time before the acceptance of the task. -/
structure PaymentWorkerInput.Clocked (i : PaymentWorkerInput) (s : PaymentTaskSnapshotV1) :
    Prop where
  accepted : s.acceptedAt ≤ i.dispatchNow
  failed : ∀ first ∈ s.operationalFirstFailureAt, first ≤ i.dispatchNow
  forward : i.dispatchNow ≤ i.now

/-- The repository accepts the call: the snapshot is progress from the claimed
    one, and a task that is scheduled is pending and due later, by its deadline. -/
structure PaymentWorkerAction.Accepted (s : PaymentTaskSnapshotV1) (a : PaymentWorkerAction) :
    Prop where
  progress : a.snapshot.validateProgressFrom s = .ok ()
  scheduled : ∀ t now due, a = .schedule t now due →
    t.root = .pending ∧ now < due ∧ due ≤ s.deadlineAt

variable {s t : PaymentTaskSnapshotV1} {now : Timestamp}

theorem accepted_persist (hp : s.root = .pending) (h : t.validateProgressFrom s = .ok ())
    (root : PaymentRootState) : (persist { t with root } now).Accepted s := by
  constructor
  · rw [snapshot]
    exact progress_root hp h root
  · intro _ _ _ hschedule
    cases hschedule

theorem accepted_schedule {due : Timestamp} (h : t.validateProgressFrom s = .ok ())
    (hroot : t.root = .pending) (hdue : now < due ∧ due ≤ s.deadlineAt) :
    (schedule t now due).Accepted s := by
  refine ⟨h, ?_⟩
  rintro _ _ _ ⟨⟩
  exact ⟨hroot, hdue⟩

theorem accepted_reduced (hp : s.root = .pending) (h : t.validateProgressFrom s = .ok ())
    (hroot : t.root = .pending) :
    ∃ a, (reducePaymentSnapshot t now).map (persist · now) = .ok a ∧
      a.Accepted s := by
  rw [reducePaymentSnapshot_pending (binding_of_progress h).1 hroot]
  exact ⟨_, rfl, accepted_persist hp h _⟩

theorem le_saturatingSucc {n : ℕ} (h : n < 2 ^ 32) : n ≤ saturatingSucc n := by
  unfold saturatingSucc
  omega

theorem saturatingSucc_mono {m n : ℕ} (h : m ≤ n) : saturatingSucc m ≤ saturatingSucc n := by
  unfold saturatingSucc
  omega

theorem saturatingSucc_ne_zero (n : ℕ) : saturatingSucc n ≠ 0 := by
  unfold saturatingSucc
  omega

theorem due_bounds {deadline : Timestamp} (delay : ℕ) (hdelay : 0 < delay) (h : now < deadline) :
    now < min (now + Duration.seconds delay) deadline ∧
      min (now + Duration.seconds delay) deadline ≤ deadline := by
  refine ⟨lt_min (Int.lt_add_of_pos_right now ?_) h, min_le_right _ _⟩
  unfold Duration.seconds
  omega

/-- The state of a task after one more failed call, due again at some time. -/
def failedState (s : PaymentTaskSnapshotV1) (failureAt : Timestamp) (due : Option Timestamp) :
    PaymentTaskSnapshotV1 :=
  { s with
    operationalFailureCount := saturatingSucc s.operationalFailureCount
    operationalFailureTotal := saturatingSucc s.operationalFailureTotal
    operationalFirstFailureAt := some (s.operationalFirstFailureAt.getD failureAt)
    operationalLastFailureAt := some failureAt
    operationalLastCategory := some .transport
    nextDueAt := due }

theorem progress_failedState (hv : s.validate = .ok ()) (hp : s.root = .pending)
    (htotal : s.operationalFailureTotal < 2 ^ 32) {failureAt : Timestamp} {due : Option Timestamp}
    (hwindow : s.acceptedAt ≤ failureAt ∧ failureAt ≤ s.deadlineAt)
    (hfirst : ∀ first ∈ s.operationalFirstFailureAt, first ≤ failureAt)
    (hdue : ∀ d, due = some d → d ≤ s.deadlineAt) :
    (failedState s failureAt due).validateProgressFrom s = .ok () := by
  have hagg := validateAggregate_eq_ok.1
    (aggregate_of_validate hv)
  have hcount : s.operationalFailureCount ≤ s.operationalFailureTotal := by
    rcases hagg with ⟨hzero, hcount, -⟩ | ⟨-, hcount, -⟩
    · rw [hzero, hcount]
    · exact hcount
  have haccepted : ∀ first ∈ s.operationalFirstFailureAt, s.acceptedAt ≤ first := by
    intro first hf
    rcases hagg with ⟨-, -, hnone, -⟩ | ⟨-, -, f, _, _, hsome, -, -, hle, -⟩
    · rw [hnone] at hf
      cases hf
    · rw [hsome] at hf
      cases hf
      exact hle
  refine progress_of_kept hv hp ?_ rfl (fun _ => rfl) (fun _ => rfl)
    (le_saturatingSucc htotal)
  refine validate_of_aggregate hv rfl ?_ hdue
  refine validateAggregate_eq_ok.2 (.inr
    ⟨saturatingSucc_ne_zero _, saturatingSucc_mono hcount, _, _, _, rfl, rfl, rfl, ?_, ?_,
      hwindow.2⟩)
  · cases hf : s.operationalFirstFailureAt with
    | none => exact hwindow.1
    | some first => exact haccepted first hf
  · cases hf : s.operationalFirstFailureAt with
    | none => exact le_rfl
    | some first => exact hfirst first hf

theorem firstFailure_le_deadline (hv : s.validate = .ok ()) :
    ∀ first ∈ s.operationalFirstFailureAt, first ≤ s.deadlineAt := by
  intro first hf
  rcases validateAggregate_eq_ok.1
    (aggregate_of_validate hv) with
    ⟨-, -, hnone, -⟩ | ⟨-, -, f, _, _, hsome, -, -, -, hle, hle'⟩
  · rw [hnone] at hf
    cases hf
  · rw [hsome] at hf
    cases hf
    exact hle.trans hle'

theorem backoffSeconds_pos (count : ℕ) (retryAfter : Option ℕ) :
    0 < backoffSeconds count retryAfter :=
  lt_of_lt_of_le Nat.zero_lt_one (Nat.le_max_left _ _)

theorem handleProviderError_total (hv : s.validate = .ok ()) (hp : s.root = .pending)
    (htotal : s.operationalFailureTotal < 2 ^ 32) (haccepted : s.acceptedAt ≤ now)
    (hfirst : ∀ first ∈ s.operationalFirstFailureAt, first ≤ now) (e : PaymentProviderError) :
    ∃ a, handleProviderError s e now = .ok a ∧ a.Accepted s := by
  have hprogress : ∀ due, (∀ d, due = some d → d ≤ s.deadlineAt) →
      (failedState s (min now s.deadlineAt) due).validateProgressFrom s = .ok () := by
    intro due hdue
    have hwindow := (valid_of_validate hv).deadline
    refine progress_failedState hv hp htotal ⟨le_min haccepted hwindow, min_le_right _ _⟩ ?_ hdue
    exact fun first hf => le_min (hfirst first hf) (firstFailure_le_deadline hv first hf)
  unfold handleProviderError
  split
  · exact ⟨_, rfl, accepted_persist hp (progress_refl hv hp) _⟩
  · exact ⟨_, rfl, accepted_persist hp (progress_refl hv hp) _⟩
  · dsimp only
    split
    · have hdue : ∀ d, s.nextDueAt = some d → d ≤ s.deadlineAt :=
        due_of_validate hv
      exact accepted_reduced hp (hprogress s.nextDueAt hdue) hp
    · rename_i hlt
      have hdue := due_bounds _
        (backoffSeconds_pos (saturatingSucc s.operationalFailureCount) e.retryAfterSeconds)
        (not_le.1 hlt)
      refine ⟨_, rfl, accepted_schedule (hprogress (some _) ?_) hp hdue⟩
      rintro d ⟨⟩
      exact hdue.2

theorem progress_of_applyCreateResponse {created expires deadline : Timestamp}
    (h : s.applyCreateResponse created expires deadline = .ok t) :
    t.validateProgressFrom s = .ok () := by
  obtain ⟨-, h⟩ := seq_eq_ok.1 h
  obtain ⟨hprogress, h⟩ := seq_eq_ok.1 h
  exact pure_eq_ok.1 h ▸ hprogress

theorem progress_of_applyStatus {status : PaymentProviderStatus}
    (h : s.applyStatus status = .ok t) : t.validateProgressFrom s = .ok () := by
  obtain ⟨-, h⟩ := seq_eq_ok.1 h
  obtain ⟨hprogress, h⟩ := seq_eq_ok.1 h
  exact pure_eq_ok.1 h ▸ hprogress

theorem onInvoiceCreated_total (hv : s.validate = .ok ()) (hp : s.root = .pending)
    (c : PaymentCreated) : ∃ a, onInvoiceCreated s c now = .ok a ∧ a.Accepted s := by
  unfold onInvoiceCreated
  split
  · exact ⟨_, rfl, accepted_persist hp (progress_refl hv hp) _⟩
  · rename_i next hnext
    have hroot := (applyCreateResponse_root hnext).trans hp
    have hprogress := progress_of_applyCreateResponse hnext
    split
    · exact accepted_reduced hp hprogress hroot
    · rename_i hlt
      refine ⟨_, rfl, accepted_schedule hprogress hroot ?_⟩
      exact ⟨lt_min (lt_add_millisecond now) (not_le.1 hlt), min_le_right _ _⟩

theorem onInvoiceStatus_total (hv : s.validate = .ok ()) (hp : s.root = .pending)
    (status : PaymentProviderStatus) :
    ∃ a, onInvoiceStatus s status now = .ok a ∧ a.Accepted s := by
  unfold onInvoiceStatus
  split
  · exact ⟨_, rfl, accepted_persist hp (progress_refl hv hp) _⟩
  · rename_i next hnext
    have hroot := (applyStatus_root hnext).trans hp
    have hprogress := progress_of_applyStatus hnext
    obtain ⟨hnextv, hb⟩ := binding_of_progress hprogress
    have hdeadline : next.deadlineAt = s.deadlineAt :=
      congrArg (fun b => b.2.2.2.2.2.2.2.2.2) hb
    rw [reducePaymentSnapshot_pending hnextv hroot]
    refine ⟨_, rfl, ?_⟩
    dsimp only
    split
    · rename_i hpending
      have hlt := lt_deadline_of_nextRoot hnextv hpending
      refine accepted_schedule (progress_root hp hprogress _) hpending ?_
      rw [hdeadline] at hlt ⊢
      exact due_bounds 5 (by decide) hlt
    · exact accepted_persist hp hprogress _

/-- **A payment tick** on a valid pending snapshot ends with a call the repository
    accepts. -/
theorem paymentWorkerAction_total {i : PaymentWorkerInput} (hv : s.validate = .ok ())
    (hp : s.root = .pending) (htotal : s.operationalFailureTotal < 2 ^ 32) (hc : i.Clocked s) :
    ∃ a, paymentWorkerAction s i = .ok a ∧ a.Accepted s := by
  have haccepted := hc.accepted.trans hc.forward
  have hfirst : ∀ first ∈ s.operationalFirstFailureAt, first ≤ i.now :=
    fun first hf => (hc.failed first hf).trans hc.forward
  rw [paymentWorkerAction, if_neg (not_not.2 hp)]
  split
  · exact accepted_reduced hp (progress_refl hv hp) hp
  · split
    · cases i.createInvoice with
      | error e => exact handleProviderError_total hv hp htotal haccepted hfirst e
      | ok c => exact onInvoiceCreated_total hv hp c
    · cases i.invoiceStatus with
      | error e => exact handleProviderError_total hv hp htotal haccepted hfirst e
      | ok status => exact onInvoiceStatus_total hv hp status

/-! ## Both lanes -/

/-- **Workers hand on what their repositories accept.**  With one clock that does
    not run backwards and answers that name their origin, every tick on a valid
    pending snapshot ends with a snapshot that is progress from the claimed one
    and has no observation after the time of evaluation; a task that is scheduled
    is pending and due later, by its deadline.  The exception is a graph tick that
    hears of an operational failure of a predicate whose total of failures is the
    largest that fits: it stops with an error. -/
theorem workers_accepted :
    (∀ (s : GraphTaskSnapshotV1) (i : GraphWorkerInput), s.validate = .ok () →
      s.root = .pending → i.Answered s → i.Clocked s →
      (∀ a ∈ i.answers, Text.trim a.observation.origin ≠ "") →
      if (i.heard s).any (·.overflows s) then
        graphWorkerAction s i = .error "operational Nexus error total overflow"
      else ∃ a, graphWorkerAction s i = .ok a ∧ a.Accepted s (i.evaluatedAt s)) ∧
    (∀ (s : PaymentTaskSnapshotV1) (i : PaymentWorkerInput), s.validate = .ok () →
      s.root = .pending → s.operationalFailureTotal < 2 ^ 32 → i.Clocked s →
      ∃ a, paymentWorkerAction s i = .ok a ∧ a.Accepted s) :=
  ⟨fun _ _ hv hp hi hc horigin => graphWorkerAction_total hv hp hi hc horigin,
    fun _ _ hv hp htotal hc => paymentWorkerAction_total hv hp htotal hc⟩

/-- A tick ten seconds after the admission that hears of a failed call. -/
def failedTick : GraphWorkerInput where
  dispatchNow := Duration.seconds 10
  answers := [⟨0, .operational .timeout "https://nexus.example" none none, Duration.seconds 11, 7⟩]
  now := Duration.seconds 12

/-- The admitted snapshot with a predicate that has failed `total` times. -/
def failingSnapshot (total : ℕ) : GraphTaskSnapshotV1 :=
  { admittedGraphSnapshot with predicates :=
      [{ GraphPredicateState.new (.follows .reader .creator) with
        operationalFailureTotal := total
        operationalFirstFailureAt := some (Duration.seconds 1)
        operationalLastFailureAt := some (Duration.seconds 9)
        operationalLastCategory := some .timeout }] }

theorem failedTick_clocked (total : ℕ) : failedTick.Clocked (failingSnapshot total) := by
  constructor
  · exact (by decide : (0 : Timestamp) ≤ Duration.seconds 10)
  · intro p hp o ho
    rw [List.mem_singleton.1 hp] at ho
    cases ho
  · intro p hp first hf
    rw [List.mem_singleton.1 hp] at hf
    cases hf
    exact (by decide : Duration.seconds 1 ≤ Duration.seconds 10)
  · decide
  · decide
  · intro a ha p hp
    rw [List.mem_singleton.1 ha] at hp
    cases hp
    nofun

/-- A failure that is counted, and a payment task whose deadline has passed. -/
theorem failures_accepted : (∃ a, graphWorkerAction (failingSnapshot 41) failedTick = .ok a ∧
      a.Accepted (failingSnapshot 41) (Duration.seconds 12)) ∧
    ∃ a, paymentWorkerAction admittedPaymentSnapshot ⟨Duration.seconds 600,
      .error ⟨.retryable, none⟩, .error ⟨.retryable, none⟩, Duration.seconds 600⟩ = .ok a ∧
      a.Accepted admittedPaymentSnapshot := by
  refine ⟨?_, workers_accepted.2 _ _ (by decide) rfl (by decide) ⟨by decide, nofun, by decide⟩⟩
  exact workers_accepted.1 (failingSnapshot 41) failedTick (by decide) rfl (by decide)
    (failedTick_clocked 41) (by decide +kernel)

/-- The failure that no longer fits the total stops the tick. -/
theorem overflow_refused : (failingSnapshot 4294967295).validate = .ok () ∧
      (failingSnapshot 4294967295).root = .pending ∧
      failedTick.Answered (failingSnapshot 4294967295) ∧
      failedTick.Clocked (failingSnapshot 4294967295) ∧
      (∀ a ∈ failedTick.answers, a.observation.origin = "https://nexus.example") ∧
      graphWorkerAction (failingSnapshot 4294967295) failedTick =
        .error "operational Nexus error total overflow" :=
  ⟨by decide, rfl, by decide, failedTick_clocked _, by decide, by decide⟩

end PubkyLocks
