/-
  The snapshots that graph workers hand to their repository
  (`locks-server/src/graph_worker.rs`) against the checks it makes of them
  (`validate_progress_from` and `validate_observations_not_after` of
  `application/models/graph0conf.rs`).
-/
import PubkyLocks.Tasks.GraphDecisions
import PubkyLocks.Tasks.GraphEvidence

namespace PubkyLocks

open GraphPredicateState GraphTaskSnapshotV1 Checks

/-! ## Valid predicates -/

namespace GraphPredicateState

variable {p : GraphPredicateState} {acceptedAt deadlineAt : Timestamp}

theorem validateObservation_eq_ok {o : GraphPredicateObservation} :
    validateObservation acceptedAt deadlineAt o = .ok () ↔
      (acceptedAt ≤ o.observedAt ∧ o.observedAt ≤ deadlineAt) ∧ originBlank o = false ∧
        (o.httpStatus.isSome → o.origin.isSome) := by
  unfold validateObservation
  split
  · rename_i hout
    refine ⟨(nomatch ·), fun ⟨hin, _⟩ => ?_⟩
    exact hout.elim (fun h => absurd hin.1 (not_le.2 h)) fun h => absurd hin.2 (not_le.2 h)
  · rename_i hin
    push Not at hin
    split
    · rename_i hblank
      simp [hblank]
    · rename_i hblank
      cases o.httpStatus <;> cases o.origin <;> simp [hin, hblank]

theorem validateAggregate_eq_ok : p.validateAggregate acceptedAt deadlineAt = .ok () ↔
      (p.operationalFailureTotal = 0 ∧ p.operationalFailureCount = 0 ∧
        p.operationalFirstFailureAt = none ∧ p.operationalLastFailureAt = none ∧
        p.operationalLastCategory = none ∧ p.operationalLastHttpStatus = none) ∨
      (p.operationalFailureTotal ≠ 0 ∧ p.operationalFailureCount ≤ p.operationalFailureTotal ∧
        ∃ first last category, p.operationalFirstFailureAt = some first ∧
          p.operationalLastFailureAt = some last ∧ p.operationalLastCategory = some category ∧
          acceptedAt ≤ first ∧ last ≤ deadlineAt ∧ first ≤ last) := by
  unfold validateAggregate
  by_cases hzero : p.operationalFailureTotal = 0
  · rw [if_pos hzero]
    simp [hzero, and_assoc]
  · rw [if_neg hzero]
    cases p.operationalFirstFailureAt <;> cases p.operationalLastFailureAt <;>
      cases p.operationalLastCategory <;> simp [hzero]

theorem due_of_validate (hv : p.validate acceptedAt deadlineAt = .ok ()) :
    p.validateAggregate acceptedAt deadlineAt = .ok () ∧
      ∀ due, p.nextDueAt = some due → due ≤ deadlineAt := by
  simp only [validate, seq_eq_ok, refuse_eq_ok] at hv
  obtain ⟨-, hagg, -, -, hdue⟩ := hv
  refine ⟨hagg, fun due h => ?_⟩
  rw [h] at hdue
  simpa using hdue

theorem validate_of_latest {o : GraphPredicateObservation} (hl : p.latestObservation = some o)
    (hf : p.firstTrueObservation = if o.outcome = .true_ then some o else none)
    (ho : validateObservation acceptedAt deadlineAt o = .ok ())
    (hagg : p.validateAggregate acceptedAt deadlineAt = .ok ())
    (hterm : p.terminalInvalid = true → p.terminalEvidence = true ∧
      p.firstTrueObservation = none ∧ p.nextDueAt = none ∧ p.operationalFailureCount = 0)
    (hdue : ∀ due, p.nextDueAt = some due → due ≤ deadlineAt) :
    p.validate acceptedAt deadlineAt = .ok () := by
  simp only [validate, seq_eq_ok, refuse_eq_ok, checkAll_eq_ok]
  refine ⟨fun o' ho' => ?_, hagg, ?_, ?_, ?_⟩
  · have heq : o' = o := by
      rw [observations, hl, hf] at ho'
      by_cases htrue : o.outcome = .true_ <;> simpa [htrue] using ho'
    rw [heq]
    exact ho
  · by_cases hinvalid : p.terminalInvalid = true
    · obtain ⟨hevidence, hfirst, hnext, hcount⟩ := hterm hinvalid
      simp [hevidence, hfirst, hnext, hcount]
    · simp [hinvalid]
  · unfold validateSticky
    rw [hl, hf]
    by_cases htrue : o.outcome = .true_ <;>
      simp [htrue, seq_eq_ok, refuse_eq_ok]
  · cases hnext : p.nextDueAt with
    | none => simp
    | some due => simpa using hdue due hnext

end GraphPredicateState

namespace GraphTaskSnapshotV1

variable {s t u : GraphTaskSnapshotV1}

theorem validate_setPredicate {i : ℕ} {p p' : GraphPredicateState} (hv : s.validate = .ok ())
    (hroot : s.root = .pending) (hp : s.predicates[i]? = some p)
    (hpred : p'.predicate = p.predicate)
    (hp' : p'.validate s.acceptedAt s.deadlineAt = .ok ()) :
    (s.setPredicate i p').validate = .ok () := by
  have hshape := predicates_setPredicate hp hpred
  have hlength : (s.setPredicate i p').predicates.length = s.predicates.length :=
    List.length_set
  simp only [validate, seq_eq_ok, refuse_eq_ok, checkAll_eq_ok] at hv ⊢
  rw [hshape, hlength]
  obtain ⟨h₁, h₂, h₃, h₄, h₅, h₆, h₇, h₈, h₉, hall, -⟩ := hv
  refine ⟨h₁, h₂, h₃, h₄, h₅, h₆, h₇, h₈, h₉, fun q hq => ?_, fun hbad => hbad.1 hroot⟩
  rcases List.mem_or_eq_of_mem_set hq with hold | rfl
  · exact hall q hold
  · exact hp'

theorem recordOperational_overflow {p : GraphPredicateState} {o : GraphPredicateObservation}
    {category : GraphOperationalErrorCategory} {count : ℕ}
    (ho : o.outcome = .dependencyUnavailable) (h : p.operationalFailureTotal + 1 ≥ 2 ^ 32) :
    recordOperational p o (some category) count =
      .error "operational Nexus error total overflow" := by
  rw [recordOperational, refuse, refuse, if_neg (not_not.2 ho), if_pos h]
  rfl

theorem recordOperational_fits (p : GraphPredicateState) (o : GraphPredicateObservation)
    (category : GraphOperationalErrorCategory) (count : ℕ)
    (ho : o.outcome = .dependencyUnavailable) (h : ¬ p.operationalFailureTotal + 1 ≥ 2 ^ 32) :
    recordOperational p o (some category) count = .ok { p with
      operationalFailureTotal := p.operationalFailureTotal + 1
      operationalFirstFailureAt := some (p.operationalFirstFailureAt.getD o.observedAt)
      operationalLastFailureAt := some o.observedAt
      operationalLastCategory := some category
      operationalLastHttpStatus := o.httpStatus } := by
  rw [recordOperational, refuse, refuse, if_neg (not_not.2 ho), if_neg h]
  rfl

theorem recordNexusObservation_of_ok {i : ℕ} {outcome : GraphObservationOutcome}
    {observedAt : Timestamp} {origin : String} {status : Option ℕ}
    {category : Option GraphOperationalErrorCategory} {due : Option Timestamp} {count : ℕ}
    {p : GraphPredicateState} (hp : s.predicates[i]? = some p)
    (hu : s.recordObservation i outcome observedAt = .ok u) :
    s.recordNexusObservation i outcome observedAt origin status category due count =
      (recordOperational (p.observeNexus ⟨outcome, observedAt, some origin, status⟩ due count)
        ⟨outcome, observedAt, some origin, status⟩ category count).bind (s.replace i) := by
  obtain ⟨-, -, -, q, hq, -, -, rfl⟩ := recordObservation_eq_ok.1 hu
  rw [hp, Option.some.injEq] at hq
  subst hq
  have hget : (s.setPredicate i (p.observe ⟨outcome, observedAt, none, none⟩)).predicateAt i =
      .ok (p.observe ⟨outcome, observedAt, none, none⟩) :=
    predicateAt_eq_ok.2 (getElem?_setPredicate hp)
  have hreplace : (s.setPredicate i (p.observe ⟨outcome, observedAt, none, none⟩)).replace i =
      s.replace i := by
    funext p'
    rw [replace, replace, setPredicate_setPredicate]
  rw [← p.observe_observeNexus, ← hreplace, recordNexusObservation, hu]
  simp only [bind, Except.bind, hget]
  rfl

end GraphTaskSnapshotV1

/-! ## One answer -/

def NexusObservation.origin : NexusObservation → String
  | valid _ origin _ | invalid origin _ | operational _ origin _ _ => origin

/-- The answer reports an operational failure, within the window, of a predicate
    whose total of failures is the largest that fits. -/
def GraphAnswer.overflows (s : GraphTaskSnapshotV1) (a : GraphAnswer) : Bool :=
  match a.observation with
  | .operational _ _ _ _ => decide (a.observedAt ≤ s.deadlineAt) &&
      s.predicates[a.index]?.any fun p => p.operationalFailureTotal + 1 ≥ 2 ^ 32
  | _ => false

/-- An answer that comes within the window, about an open predicate that was
    observed and failed before it only. -/
structure GraphAnswer.Timely (a : GraphAnswer) (s : GraphTaskSnapshotV1)
    (p : GraphPredicateState) : Prop where
  state : s.predicates[a.index]? = some p
  isOpen : p.isOpen
  window : s.acceptedAt ≤ a.observedAt ∧ a.observedAt ≤ s.deadlineAt
  later : ∀ o, p.latestObservation = some o → o.observedAt < a.observedAt
  failed : ∀ first, p.operationalFirstFailureAt = some first → first ≤ a.observedAt
  origin : Text.trim a.observation.origin ≠ ""

namespace GraphPredicateState

variable {p : GraphPredicateState} {acceptedAt deadlineAt t : Timestamp}

theorem isOpen_iff : p.isOpen ↔ p.firstTrueObservation = none ∧ p.terminalInvalid = false := by
  simp [isOpen]

theorem validateAggregate_success {o : GraphPredicateObservation} {due : Option Timestamp}
    (h : p.validateAggregate acceptedAt deadlineAt = .ok ()) :
    (p.observeNexus o due 0).validateAggregate acceptedAt deadlineAt = .ok () := by
  rw [validateAggregate_eq_ok] at h ⊢
  rcases h with ⟨hzero, -, hnone⟩ | ⟨hne, -, hsome⟩
  · exact .inl ⟨hzero, rfl, hnone⟩
  · exact .inr ⟨hne, Nat.zero_le _, hsome⟩

theorem accepted_of_validateAggregate (h : p.validateAggregate acceptedAt deadlineAt = .ok ()) :
    p.operationalFailureCount ≤ p.operationalFailureTotal ∧
      ∀ first, p.operationalFirstFailureAt = some first → acceptedAt ≤ first := by
  rcases validateAggregate_eq_ok.1 h with
    ⟨hzero, hcount, hnone, -⟩ | ⟨-, hcount, f, l, c, hf, -, -, hin⟩
  · rw [hnone, hzero, hcount]
    exact ⟨le_rfl, nofun⟩
  · refine ⟨hcount, fun first h => ?_⟩
    rw [hf, Option.some.injEq] at h
    exact h ▸ hin.1

end GraphPredicateState

theorem saturatingSucc_le (n : ℕ) : saturatingSucc n ≤ n + 1 := Nat.min_le_left _ _

theorem clampDue_le (now deadline : Timestamp) (delay : ℕ) :
    clampDue now delay deadline ≤ deadline :=
  min_le_right _ _

namespace GraphAnswer.Timely

variable {s u : GraphTaskSnapshotV1} {a : GraphAnswer} {p p' : GraphPredicateState}

theorem valid_state (h : a.Timely s p) (hv : s.validate = .ok ()) :
    p.validate s.acceptedAt s.deadlineAt = .ok () :=
  (valid_of_validate hv).predicates p (List.mem_of_getElem? h.state)

theorem recordObservation (h : a.Timely s p) (hv : s.validate = .ok ()) (hroot : s.root = .pending)
    (outcome : GraphObservationOutcome) :
    ∃ u, s.recordObservation a.index outcome a.observedAt = .ok u := by
  obtain ⟨hfirst, hvalid⟩ := isOpen_iff.1 h.isOpen
  obtain ⟨hagg, hdue⟩ := due_of_validate (h.valid_state hv)
  refine ⟨_, recordObservation_eq_ok.2 ⟨hv, hroot, h.window, p, h.state,
    fun o ho => (h.later o ho).le, ?_, rfl⟩⟩
  refine validate_setPredicate hv hroot h.state rfl ?_
  refine validate_of_latest rfl ?_ ?_ hagg ?_ hdue
  · simp [observe, hfirst]
  · exact validateObservation_eq_ok.2 ⟨h.window, rfl, nofun⟩
  · intro hinvalid
    rw [observe, hvalid] at hinvalid
    cases hinvalid

variable {outcome : GraphObservationOutcome} {status : Option ℕ} {due : Option Timestamp}

theorem recordNexusObservation (h : a.Timely s p) (hv : s.validate = .ok ())
    (hroot : s.root = .pending)
    {category : Option GraphOperationalErrorCategory} {count : ℕ}
    {origin : String}
    (hop : recordOperational
      (p.observeNexus ⟨outcome, a.observedAt, some origin, status⟩ due count)
      ⟨outcome, a.observedAt, some origin, status⟩ category count = .ok p')
    (hp' : p'.validate s.acceptedAt s.deadlineAt = .ok ()) :
    s.recordNexusObservation a.index outcome a.observedAt origin status category due count =
      .ok (s.setPredicate a.index p') := by
  obtain ⟨u, hu⟩ := h.recordObservation hv hroot outcome
  rw [recordNexusObservation_of_ok h.state hu, hop]
  have hpred : p'.predicate = p.predicate :=
    (recordOperational_eq_ok hop).1
  exact replace_eq_ok.2
    ⟨validate_setPredicate hv hroot h.state hpred hp', rfl⟩

theorem validateObservation (h : a.Timely s p) (outcome : GraphObservationOutcome)
    (status : Option ℕ) :
    validateObservation s.acceptedAt s.deadlineAt
      ⟨outcome, a.observedAt, some a.observation.origin, status⟩ = .ok () := by
  refine validateObservation_eq_ok.2 ⟨h.window, ?_, fun _ => rfl⟩
  simpa [originBlank] using h.origin

section
variable (h : a.Timely s p) (hv : s.validate = .ok ())
include h hv

theorem validate_observeNexus (hdue : ∀ d, due = some d → d ≤ s.deadlineAt) :
    (p.observeNexus ⟨outcome, a.observedAt, some a.observation.origin, status⟩ due 0).validate
      s.acceptedAt s.deadlineAt = .ok () := by
  obtain ⟨hfirst, hvalid⟩ := isOpen_iff.1 h.isOpen
  obtain ⟨hagg, -⟩ := due_of_validate (h.valid_state hv)
  refine validate_of_latest rfl ?_ (h.validateObservation outcome status)
    (validateAggregate_success hagg) ?_ hdue
  · simp [observeNexus, hfirst]
  · intro hinvalid
    rw [observeNexus, hvalid] at hinvalid
    cases hinvalid

theorem recordSuccess (hroot : s.root = .pending)
    (outcome : GraphObservationOutcome) (status : Option ℕ)
    (hdue : ∀ d, due = some d → d ≤ s.deadlineAt) :
    s.recordNexusObservation a.index outcome a.observedAt a.observation.origin status none due 0 =
      .ok (s.setPredicate a.index
        (p.observeNexus ⟨outcome, a.observedAt, some a.observation.origin, status⟩ due 0)) :=
  h.recordNexusObservation hv hroot rfl (h.validate_observeNexus hv hdue)

theorem terminalizeInvalidNexusResponse (hroot : s.root = .pending) (status : ℕ) :
    ∃ u, s.terminalizeInvalidNexusResponse a.index a.observedAt a.observation.origin
      (some status) = .ok u := by
  obtain ⟨hfirst, -⟩ := isOpen_iff.1 h.isOpen
  obtain ⟨hagg, -⟩ := due_of_validate (h.valid_state hv)
  have hone := h.recordSuccess hv hroot .dependencyUnavailable (some status)
    (nofun : ∀ d, none = some d → d ≤ s.deadlineAt)
  rw [GraphTaskSnapshotV1.terminalizeInvalidNexusResponse]
  refine ⟨_, bind_eq_ok.2 ⟨_, hone, bind_eq_ok.2 ⟨_,
    predicateAt_eq_ok.2 (getElem?_setPredicate h.state),
    replace_eq_ok.2 ⟨?_, rfl⟩⟩⟩⟩
  rw [setPredicate_setPredicate]
  refine validate_setPredicate hv hroot h.state rfl ?_
  have hagg' : (p.observeNexus ⟨.dependencyUnavailable, a.observedAt,
      some a.observation.origin, some status⟩ none 0).validateAggregate s.acceptedAt s.deadlineAt =
      .ok () := validateAggregate_success hagg
  refine validate_of_latest rfl ?_ (h.validateObservation _ _) hagg' ?_ nofun
  · simp [observeNexus, hfirst]
  · intro _
    simp [terminalEvidence, observeNexus, hfirst, h.origin]

theorem validateAggregate_failure
    (category : GraphOperationalErrorCategory) (o : GraphPredicateObservation)
    (due : Option Timestamp) (status : Option ℕ) :
    { p.observeNexus o due (saturatingSucc p.operationalFailureCount) with
      operationalFailureTotal := p.operationalFailureTotal + 1
      operationalFirstFailureAt := some (p.operationalFirstFailureAt.getD a.observedAt)
      operationalLastFailureAt := some a.observedAt
      operationalLastCategory := some category
      operationalLastHttpStatus := status }.validateAggregate s.acceptedAt s.deadlineAt =
        .ok () := by
  obtain ⟨hagg, -⟩ := due_of_validate (h.valid_state hv)
  obtain ⟨hcount, hfirst⟩ := accepted_of_validateAggregate hagg
  refine validateAggregate_eq_ok.2 (.inr ⟨Nat.succ_ne_zero _, ?_, _, _, _,
    rfl, rfl, rfl, ?_, h.window.2, ?_⟩)
  · exact (saturatingSucc_le _).trans (Nat.succ_le_succ hcount)
  · cases hf : p.operationalFirstFailureAt with
    | none => exact h.window.1
    | some first => exact hfirst first hf
  · cases hf : p.operationalFirstFailureAt with
    | none => exact le_rfl
    | some first => exact h.failed first hf

theorem recordFailure (hroot : s.root = .pending)
    (category : GraphOperationalErrorCategory) (status : Option ℕ) {due : Timestamp}
    (hdue : due ≤ s.deadlineAt) :
    if p.operationalFailureTotal + 1 ≥ 2 ^ 32 then
      s.recordNexusObservation a.index .dependencyUnavailable a.observedAt a.observation.origin
        status (some category) (some due) (saturatingSucc p.operationalFailureCount) =
        .error "operational Nexus error total overflow"
    else ∃ u, s.recordNexusObservation a.index .dependencyUnavailable a.observedAt
      a.observation.origin status (some category) (some due)
      (saturatingSucc p.operationalFailureCount) = .ok u := by
  obtain ⟨hfirst, hvalid⟩ := isOpen_iff.1 h.isOpen
  split
  · rename_i hover
    obtain ⟨u, hu⟩ := h.recordObservation hv hroot .dependencyUnavailable
    rw [recordNexusObservation_of_ok h.state hu,
      recordOperational_overflow rfl (by exact hover)]
    rfl
  · rename_i hfits
    have hop := recordOperational_fits
      (p.observeNexus ⟨.dependencyUnavailable, a.observedAt, some a.observation.origin,
        status⟩ (some due) (saturatingSucc p.operationalFailureCount))
      ⟨.dependencyUnavailable, a.observedAt, some a.observation.origin, status⟩
      category (saturatingSucc p.operationalFailureCount) rfl hfits
    refine ⟨_, h.recordNexusObservation hv hroot hop ?_⟩
    refine validate_of_latest rfl ?_ (h.validateObservation _ _)
      (h.validateAggregate_failure hv _ _ _ _) ?_ ?_
    · simp [observeNexus, hfirst]
    · intro hinvalid
      rw [observeNexus, hvalid] at hinvalid
      cases hinvalid
    · rintro d ⟨⟩
      exact hdue

/-- **One answer** is recorded unless it overflows. -/
theorem applyObservation (hroot : s.root = .pending) : if a.overflows s then
      applyObservation s a = .error "operational Nexus error total overflow"
    else ∃ u, applyObservation s a = .ok u := by
  unfold GraphAnswer.overflows PubkyLocks.applyObservation
  cases ha : a.observation with
  | valid value origin status =>
    have ho : origin = a.observation.origin := by rw [ha]; rfl
    rw [if_neg Bool.false_ne_true, ho]
    cases value with
    | true => exact ⟨_, h.recordSuccess hv hroot _ _ nofun⟩
    | false =>
      refine ⟨_, h.recordSuccess hv hroot _ _ ?_⟩
      rintro d ⟨⟩
      exact clampDue_le _ _ _
  | invalid origin status =>
    have ho : origin = a.observation.origin := by rw [ha]; rfl
    rw [if_neg Bool.false_ne_true, ho]
    exact h.terminalizeInvalidNexusResponse hv hroot status
  | operational kind origin status retryAfter =>
    have ho : origin = a.observation.origin := by rw [ha]; rfl
    have hat : s.predicateAt a.index = .ok p :=
      predicateAt_eq_ok.2 h.state
    have hone := h.recordFailure hv hroot kind.category status
      (clampDue_le a.observedAt s.deadlineAt
        (operationalDelay (saturatingSucc p.operationalFailureCount) retryAfter a.random))
    simp only [hat, h.state, decide_eq_true h.window.2, Bool.true_and, Option.any_some,
      decide_eq_true_eq, ho]
    exact hone

end

end GraphAnswer.Timely

/-! ## The answers of a tick -/

/-- The second state of a predicate is one the repository takes after the first,
    with no observation after `now`. -/
structure GraphPredicateState.Advances (now : Timestamp) (p q : GraphPredicateState) : Prop where
  seen : ∀ o ∈ q.observations, o.observedAt ≤ now
  progress : validatePredicateProgress p q = .ok ()

namespace GraphPredicateState

variable {now : Timestamp} {p q : GraphPredicateState}

theorem Advances.refl (h : ∀ o ∈ p.observations, o.observedAt ≤ now) : p.Advances now p := by
  refine ⟨h, ?_⟩
  simp only [validatePredicateProgress, seq_eq_ok, refuse_eq_ok]
  refine ⟨by simp, by simp, ?_, ?_⟩
  · cases p.latestObservation with
    | none => rfl
    | some o => simp [validateLatestProgress, seq_eq_ok,
        refuse_eq_ok]
  · rintro ⟨hnone, hsome, -⟩
    simp_all

theorem Advances.of_latest {o : GraphPredicateObservation} (hopen : p.isOpen)
    (hlater : ∀ latest, p.latestObservation = some latest → latest.observedAt < o.observedAt)
    (ho : o.observedAt ≤ now) (hl : q.latestObservation = some o)
    (hf : q.firstTrueObservation = none ∨ q.firstTrueObservation = some o) :
    p.Advances now q := by
  obtain ⟨hfirst, hvalid⟩ := isOpen_iff.1 hopen
  constructor
  · intro o' ho'
    have heq : o' = o := by
      rw [observations, hl] at ho'
      rcases hf with h | h <;> simpa [h] using ho'
    rw [heq]
    exact ho
  · simp only [validatePredicateProgress, seq_eq_ok,
      refuse_eq_ok]
    refine ⟨by simp [hvalid], by simp [hfirst], ?_, ?_⟩
    · rw [hl]
      cases hlatest : p.latestObservation with
      | none => rfl
      | some latest =>
        have hlt := hlater latest hlatest
        simp only [validateLatestProgress, seq_eq_ok,
          refuse_eq_ok]
        exact ⟨not_lt.2 hlt.le, fun hbad => (ne_of_gt hlt) hbad.1⟩
    · rintro ⟨-, hsome, hne⟩
      rcases hf with h | h
      · rw [h] at hsome
        cases hsome
      · exact hne (h.trans hl.symm)

end GraphPredicateState

/-- The second snapshot is the first with predicates that have advanced. -/
structure GraphTaskSnapshotV1.Advances (now : Timestamp) (s t : GraphTaskSnapshotV1) : Prop where
  valid : t.validate = .ok ()
  pending : t.root = .pending
  binding : t.binding = s.binding
  predicates : ∀ (j : ℕ) (p q : GraphPredicateState), s.predicates[j]? = some p →
    t.predicates[j]? = some q → p.Advances now q

variable {s t u : GraphTaskSnapshotV1} {now : Timestamp} {a : GraphAnswer} {p : GraphPredicateState}

theorem deadlineAt_of_binding (h : t.binding = s.binding) : t.deadlineAt = s.deadlineAt :=
  congrArg (fun b => b.2.2.2.2.2.2.1) h

theorem acceptedAt_of_binding (h : t.binding = s.binding) : t.acceptedAt = s.acceptedAt :=
  congrArg (fun b => b.2.2.2.2.2.1) h

theorem shape_of_binding (h : t.binding = s.binding) :
    t.predicates.map (·.predicate) = s.predicates.map (·.predicate) :=
  congrArg (fun b => b.2.2.2.2.2.2.2.2) h

theorem GraphAnswer.Timely.of_binding (h : a.Timely s p) (hb : t.binding = s.binding)
    (hfresh : t.predicates[a.index]? = s.predicates[a.index]?) : a.Timely t p :=
  ⟨hfresh.trans h.state, h.isOpen,
    (acceptedAt_of_binding hb).symm ▸ (deadlineAt_of_binding hb).symm ▸ h.window, h.later,
    h.failed, h.origin⟩

theorem GraphAnswer.overflows_of_binding (hb : t.binding = s.binding)
    (hfresh : t.predicates[a.index]? = s.predicates[a.index]?) :
    a.overflows t = a.overflows s := by
  unfold overflows
  rw [hfresh, deadlineAt_of_binding hb]

namespace GraphTaskSnapshotV1.Advances

theorem refl (hv : s.validate = .ok ()) (hp : s.root = .pending)
    (hseen : ∀ p ∈ s.predicates, ∀ o ∈ p.observations, o.observedAt ≤ now) : s.Advances now s := by
  refine ⟨hv, hp, rfl, fun j p q hj hj' => ?_⟩
  rw [hj, Option.some.injEq] at hj'
  exact hj' ▸ .refl (hseen p (List.mem_of_getElem? hj))

theorem record (h : s.Advances now t) (ha : a.Timely t p) (hnow : a.observedAt ≤ now)
    (hs : s.predicates[a.index]? = some p) (hu : applyObservation t a = .ok u) :
    s.Advances now u ∧ ∀ j, j ≠ a.index → u.predicates[j]? = t.predicates[j]? := by
  have hr := records_of_applyObservation hu
  have hb := hr.binding
  obtain ⟨hpending, -, hv, p₁, p', o, hp₁, rfl, -, -, hlatest, hout, hat, hfirst⟩ := hr
  rw [ha.state, Option.some.injEq] at hp₁
  subst hp₁
  have hone : p.Advances now p' := by
    refine .of_latest ha.isOpen ?_ (hat ▸ hnow) hlatest ?_
    · rw [hat]
      exact ha.later
    · rcases hfirst with hkept | ⟨-, hnew⟩
      · exact .inl (hkept.trans (isOpen_iff.1 ha.isOpen).1)
      · exact .inr hnew
  have hother : ∀ j, j ≠ a.index →
      (t.setPredicate a.index p').predicates[j]? = t.predicates[j]? :=
    fun j hj => List.getElem?_set_ne (Ne.symm hj)
  refine ⟨⟨hv, hpending, hb.trans h.binding, fun j q q' hq hq' => ?_⟩, hother⟩
  by_cases hj : j = a.index
  · subst hj
    rw [getElem?_setPredicate ha.state, Option.some.injEq] at hq'
    rw [hs, Option.some.injEq] at hq
    exact hq ▸ hq' ▸ hone
  · rw [hother j hj] at hq'
    exact h.predicates j q q' hq hq'

theorem validateProgressFrom (h : s.Advances now t) (hv : s.validate = .ok ())
    (hp : s.root = .pending) {root : GraphRootState}
    (hroot : root = .pending ∨ root = t.terminalRootFromObservations) :
    { t with root }.validateProgressFrom s = .ok () := by
  simp only [GraphTaskSnapshotV1.validateProgressFrom, seq_eq_ok, refuse_eq_ok,
    checkAll_eq_ok, not_not]
  refine ⟨hv, validate_root h.valid hroot, hp,
    (shape_of_binding h.binding).symm, fun pair hpair => ?_⟩
  obtain ⟨j, hj⟩ := List.mem_iff_getElem?.1 hpair
  obtain ⟨hl, hr⟩ := List.getElem?_zip_eq_some.1 hj
  exact (h.predicates j _ _ hl hr).progress

theorem seen (h : s.Advances now t) :
    ∀ q ∈ t.predicates, ∀ o ∈ q.observations, o.observedAt ≤ now := by
  intro q hq
  obtain ⟨j, hj⟩ := List.mem_iff_getElem?.1 hq
  have hlength : t.predicates.length = s.predicates.length := by
    simpa using congrArg List.length (shape_of_binding h.binding)
  obtain ⟨hlt, -⟩ := List.getElem?_eq_some_iff.1 hj
  exact (h.predicates j _ q (List.getElem?_eq_getElem (hlength ▸ hlt)) hj).seen

end GraphTaskSnapshotV1.Advances

/-- **The answers of a tick** are recorded unless one overflows.  The induction is
    on the answers; those to come are about predicates not touched so far. -/
theorem applyAnswers_total {answers : List GraphAnswer} (h : s.Advances now t)
    (htimely : ∀ a ∈ answers, a.observedAt ≤ s.deadlineAt → ∃ p, a.Timely s p)
    (hnow : ∀ a ∈ answers, a.observedAt ≤ now) (hnodup : (answers.map (·.index)).Nodup)
    (hfresh : ∀ a ∈ answers, t.predicates[a.index]? = s.predicates[a.index]?) :
    if answers.any (·.overflows s) then
      applyAnswers t answers = .error "operational Nexus error total overflow"
    else ∃ u, applyAnswers t answers = .ok u ∧ s.Advances now u := by
  unfold applyAnswers
  induction answers generalizing t with
  | nil => exact ⟨t, rfl, h⟩
  | cons a answers ih =>
    rw [List.map_cons, List.nodup_cons] at hnodup
    rw [List.foldlM_cons, List.any_cons, deadlineAt_of_binding h.binding]
    by_cases hlate : a.observedAt > s.deadlineAt
    · have hover : a.overflows s = false := by
        unfold GraphAnswer.overflows
        split
        · simp [hlate]
        · rfl
      rw [if_pos hlate, hover, Bool.false_or]
      exact ih h (fun b hb => htimely b (List.mem_cons_of_mem _ hb))
        (fun b hb => hnow b (List.mem_cons_of_mem _ hb)) hnodup.2
        (fun b hb => hfresh b (List.mem_cons_of_mem _ hb))
    · obtain ⟨p, hp⟩ := htimely a List.mem_cons_self (not_lt.1 hlate)
      have hat := hfresh a List.mem_cons_self
      have hone := (hp.of_binding h.binding hat).applyObservation h.valid h.pending
      rw [GraphAnswer.overflows_of_binding h.binding hat] at hone
      rw [if_neg hlate]
      cases hover : a.overflows s with
      | true =>
        rw [hover, if_pos rfl] at hone
        rw [hone]
        rfl
      | false =>
        rw [hover, if_neg Bool.false_ne_true] at hone
        obtain ⟨u, hu⟩ := hone
        obtain ⟨hadv, hother⟩ := h.record (hp.of_binding h.binding hat)
          (hnow a List.mem_cons_self) hp.state hu
        rw [hu, Bool.false_or]
        refine ih hadv (fun b hb => htimely b (List.mem_cons_of_mem _ hb))
          (fun b hb => hnow b (List.mem_cons_of_mem _ hb)) hnodup.2 fun b hb => ?_
        have hne : b.index ≠ a.index := fun heq =>
          hnodup.1 (heq ▸ List.mem_map_of_mem hb)
        exact (hother _ hne).trans (hfresh b (List.mem_cons_of_mem _ hb))

/-! ## Graph ticks -/

/-- One clock for a tick and for what is stored: it does not run backwards, it
    shows no time before the acceptance of the task, and it moves on between two
    observations of a predicate. -/
structure GraphWorkerInput.Clocked (i : GraphWorkerInput) (s : GraphTaskSnapshotV1) : Prop where
  accepted : s.acceptedAt ≤ i.dispatchNow
  observed : ∀ p ∈ s.predicates, ∀ o ∈ p.observations, o.observedAt ≤ i.dispatchNow
  failed : ∀ p ∈ s.predicates, ∀ first ∈ p.operationalFirstFailureAt, first ≤ i.dispatchNow
  forward : i.dispatchNow ≤ i.now
  answered : ∀ a ∈ i.answers, i.dispatchNow ≤ a.observedAt ∧ a.observedAt ≤ i.now
  strict : ∀ a ∈ i.answers, ∀ p ∈ s.predicates[a.index]?, ∀ o ∈ p.latestObservation,
    o.observedAt < a.observedAt

def GraphWorkerInput.evaluatedAt (i : GraphWorkerInput) (s : GraphTaskSnapshotV1) : Timestamp :=
  if i.dispatchNow ≥ s.deadlineAt ∨ dueIndices s i.dispatchNow = [] then i.dispatchNow else i.now

/-- The repository accepts the call: the snapshot is progress from the claimed
    one, it has no observation after the time of the database, and a task that is
    scheduled is pending and due later, by its deadline. -/
structure GraphWorkerAction.Accepted (s : GraphTaskSnapshotV1) (evaluatedAt : Timestamp)
    (a : GraphWorkerAction) : Prop where
  progress : a.snapshot.validateProgressFrom s = .ok ()
  observations : ∀ dbNow, evaluatedAt ≤ dbNow →
    a.snapshot.validateObservationsNotAfter dbNow = .ok ()
  scheduled : ∀ t now due, a = .schedule t now due →
    t.root = .pending ∧ now < due ∧ due ≤ s.deadlineAt

variable {i : GraphWorkerInput}

theorem lt_add_millisecond (now : Timestamp) : now < now + 1000000 :=
  Int.lt_add_of_pos_right now (by decide)

theorem nextDue_bounds (h : now < s.deadlineAt) :
    now < nextDue s now ∧ nextDue s now ≤ s.deadlineAt :=
  ⟨lt_min (lt_max_of_lt_right (lt_add_millisecond now)) h, min_le_right _ _⟩

theorem isOpen_of_mem_dueIndices {j : ℕ} (h : j ∈ dueIndices s now) :
    ∃ p, s.predicates[j]? = some p ∧ p.isOpen := by
  have hfilter := (List.mem_filter.1 (List.mem_of_mem_take h)).2
  obtain ⟨p, hp, hopen⟩ := (Option.any_eq_true _ _).1 hfilter
  exact ⟨p, hp, (Bool.and_eq_true _ _ ▸ hopen).1⟩

theorem GraphWorkerInput.Clocked.timely (h : i.Clocked s) (hi : i.Answered s)
    (horigin : ∀ a ∈ i.answers, Text.trim a.observation.origin ≠ "") {a : GraphAnswer}
    (ha : a ∈ i.answers) (hin : a.observedAt ≤ s.deadlineAt) : ∃ p, a.Timely s p := by
  obtain ⟨p, hp, hopen⟩ := isOpen_of_mem_dueIndices (hi.2 a ha)
  have hdispatch := (h.answered a ha).1
  exact ⟨p, hp, hopen, ⟨h.accepted.trans hdispatch, hin⟩, fun o ho => h.strict a ha p hp o ho,
    fun first hf => (h.failed p (List.mem_of_getElem? hp) first hf).trans hdispatch, horigin a ha⟩

theorem accepted_of_advances (h : s.Advances now u) (hv : s.validate = .ok ())
    (hp : s.root = .pending) :
    ∃ t, u.reduceGraphSnapshot now = .ok t ∧ (persistTerminalOrPending t now).Accepted s now := by
  have hdeadline := deadlineAt_of_binding h.binding
  refine ⟨_, reduceGraphSnapshot_eq_ok h.valid h.pending h.seen, ?_, ?_, ?_⟩
  · rw [persistTerminalOrPending_snapshot]
    exact h.validateProgressFrom hv hp (nextRoot_cases h.valid h.pending _)
  · intro dbNow hle
    rw [persistTerminalOrPending_snapshot, validateObservationsNotAfter_eq_ok]
    exact fun p hp o ho => (h.seen p hp o ho).trans hle
  · intro t' now' due hschedule
    unfold persistTerminalOrPending at hschedule
    split at hschedule
    · cases hschedule
    · rename_i hroot
      rw [not_not] at hroot
      cases hschedule
      have hlt := lt_deadline_of_nextRoot h.valid hroot
      have hdue := nextDue_bounds (s := { u with root := u.nextRoot (decide (now ≥ u.deadlineAt)) })
        hlt
      exact ⟨hroot, hdue.1, hdeadline ▸ hdue.2⟩

/-- **A graph tick** on a valid pending snapshot ends with a call the repository
    accepts, unless an answer overflows. -/
theorem graphWorkerAction_total (hv : s.validate = .ok ()) (hp : s.root = .pending)
    (hi : i.Answered s) (hc : i.Clocked s)
    (horigin : ∀ a ∈ i.answers, Text.trim a.observation.origin ≠ "") :
    if (i.heard s).any (·.overflows s) then
      graphWorkerAction s i = .error "operational Nexus error total overflow"
    else ∃ a, graphWorkerAction s i = .ok a ∧ a.Accepted s (i.evaluatedAt s) := by
  rw [graphWorkerAction, if_neg (not_not.2 hp)]
  by_cases hdeadline : i.dispatchNow ≥ s.deadlineAt
  · have hheard : i.heard s = [] := if_neg fun h => absurd h.2 (not_lt.2 hdeadline)
    have heval : i.evaluatedAt s = i.dispatchNow := if_pos (.inl hdeadline)
    obtain ⟨t, ht, haccepted⟩ :=
      accepted_of_advances (.refl hv hp hc.observed) hv hp
    rw [hheard, List.any_nil, if_neg Bool.false_ne_true, if_pos hdeadline, heval, ht]
    exact ⟨_, rfl, haccepted⟩
  · have hheard : i.heard s = i.answers := if_pos ⟨hp, not_le.1 hdeadline⟩
    rw [hheard, if_neg hdeadline]
    by_cases hdue : dueIndices s i.dispatchNow = []
    · have hnone : i.answers = [] := by
        refine List.eq_nil_iff_forall_not_mem.2 fun a ha => ?_
        have hmem := hi.2 a ha
        rw [hdue] at hmem
        cases hmem
      have heval : i.evaluatedAt s = i.dispatchNow := if_pos (.inr hdue)
      rw [hnone, List.any_nil, if_neg Bool.false_ne_true, if_pos hdue, heval]
      refine ⟨_, rfl, ?_, fun dbNow hle => ?_, ?_⟩
      · have hprogress := (Advances.refl hv hp hc.observed).validateProgressFrom
          hv hp (.inl hp)
        exact hprogress
      · refine validateObservationsNotAfter_eq_ok.2 fun p hp o ho => ?_
        exact (hc.observed p hp o ho).trans hle
      · rintro t now due ⟨⟩
        exact ⟨hp, nextDue_bounds (not_le.1 hdeadline)⟩
    · have heval : i.evaluatedAt s = i.now := if_neg (not_or.2 ⟨hdeadline, hdue⟩)
      rw [if_neg hdue, heval]
      have hseen : ∀ p ∈ s.predicates, ∀ o ∈ p.observations, o.observedAt ≤ i.now :=
        fun p hp o ho => (hc.observed p hp o ho).trans hc.forward
      have hanswers := applyAnswers_total (.refl hv hp hseen)
        (fun a ha hin => hc.timely hi horigin ha hin) (fun a ha => (hc.answered a ha).2) hi.1
        fun _ _ => rfl
      split at hanswers
      · rename_i hover
        rw [if_pos hover, hanswers]
        rfl
      · rename_i hfits
        obtain ⟨u, hu, hadv⟩ := hanswers
        obtain ⟨t, ht, haccepted⟩ := accepted_of_advances hadv hv hp
        rw [if_neg hfits, hu]
        refine ⟨_, ?_, haccepted⟩
        rw [bind_eq_ok]
        exact ⟨u, rfl, bind_eq_ok.2 ⟨t, ht, rfl⟩⟩

end PubkyLocks
