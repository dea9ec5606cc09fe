/-
  How graph tasks are decided: the observations a snapshot records
  (`application/models/graph0conf.rs`) and the reducer of the lane
  (`application/graph0conf_reducer.rs`).
-/
import PubkyLocks.Tasks.GraphSnapshot
import Mathlib.Data.List.Forall2

namespace PubkyLocks

open GraphTaskSnapshotV1 Checks

/-! ## Recording observations -/

/-- The predicate with a new latest observation; the first true one is sticky. -/
def GraphPredicateState.observe (p : GraphPredicateState) (o : GraphPredicateObservation) :
    GraphPredicateState :=
  { p with
    latestObservation := some o
    firstTrueObservation :=
      if o.outcome = .true_ ∧ p.firstTrueObservation.isNone then some o
      else p.firstTrueObservation }

/-- The predicate with a new latest observation that has an origin: a true one is
    the sticky one. -/
def GraphPredicateState.observeNexus (p : GraphPredicateState) (o : GraphPredicateObservation)
    (nextDueAt : Option Timestamp) (failureCount : ℕ) : GraphPredicateState :=
  { p with
    latestObservation := some o
    firstTrueObservation := if o.outcome = .true_ then some o else p.firstTrueObservation
    nextDueAt
    operationalFailureCount := failureCount }

namespace GraphTaskSnapshotV1

def setPredicate (s : GraphTaskSnapshotV1) (i : ℕ) (p : GraphPredicateState) :
    GraphTaskSnapshotV1 :=
  { s with predicates := s.predicates.set i p }

/-- The checked replacement of a predicate that ends every recording. -/
def replace (s : GraphTaskSnapshotV1) (i : ℕ) (p : GraphPredicateState) :
    Except String GraphTaskSnapshotV1 := do
  (s.setPredicate i p).validate
  pure (s.setPredicate i p)

def predicateAt (s : GraphTaskSnapshotV1) (i : ℕ) : Except String GraphPredicateState :=
  okOr s.predicates[i]? "graph predicate index is out of bounds"

def recordObservation (s : GraphTaskSnapshotV1) (i : ℕ) (outcome : GraphObservationOutcome)
    (observedAt : Timestamp) : Except String GraphTaskSnapshotV1 := do
  s.validate
  refuse (s.root ≠ .pending) "terminal graph task snapshot cannot accept observations"
  refuse (observedAt < s.acceptedAt ∨ observedAt > s.deadlineAt)
    "graph observation falls outside accepted task window"
  let p ← s.predicateAt i
  refuse (p.latestObservation.any fun latest => observedAt < latest.observedAt)
    "graph observation precedes latest observation"
  s.replace i (p.observe ⟨outcome, observedAt, none, none⟩)

def recordOperational (p : GraphPredicateState) (o : GraphPredicateObservation)
    (category : Option GraphOperationalErrorCategory) (failureCount : ℕ) :
    Except String GraphPredicateState :=
  match category with
  | some category => do
    refuse (o.outcome ≠ .dependencyUnavailable)
      "operational Nexus error must be dependency unavailable"
    refuse (p.operationalFailureTotal + 1 ≥ 2 ^ 32) "operational Nexus error total overflow"
    pure { p with
      operationalFailureTotal := p.operationalFailureTotal + 1
      operationalFirstFailureAt := some (p.operationalFirstFailureAt.getD o.observedAt)
      operationalLastFailureAt := some o.observedAt
      operationalLastCategory := some category
      operationalLastHttpStatus := o.httpStatus }
  | none => do
    refuse (failureCount ≠ 0) "operational Nexus error count lacks normalized category"
    pure p

def recordNexusObservation (s : GraphTaskSnapshotV1) (i : ℕ) (outcome : GraphObservationOutcome)
    (observedAt : Timestamp) (origin : String) (httpStatus : Option ℕ)
    (category : Option GraphOperationalErrorCategory) (nextDueAt : Option Timestamp)
    (failureCount : ℕ) : Except String GraphTaskSnapshotV1 := do
  let recorded ← s.recordObservation i outcome observedAt
  let p ← recorded.predicateAt i
  let latest ← okOr p.latestObservation "graph predicate observation was not recorded"
  let o : GraphPredicateObservation := { latest with origin := some origin, httpStatus }
  let next ← recordOperational { p with
      latestObservation := some o
      firstTrueObservation := if outcome = .true_ then some o else p.firstTrueObservation
      nextDueAt
      operationalFailureCount := failureCount } o category failureCount
  recorded.replace i next

def terminalizeInvalidNexusResponse (s : GraphTaskSnapshotV1) (i : ℕ) (observedAt : Timestamp)
    (origin : String) (httpStatus : Option ℕ) : Except String GraphTaskSnapshotV1 := do
  let recorded ← s.recordNexusObservation i .dependencyUnavailable observedAt origin httpStatus
    none none 0
  let p ← recorded.predicateAt i
  recorded.replace i { p with terminalInvalid := true }

end GraphTaskSnapshotV1

/-- One call of a recording operation. -/
inductive Recording where
  | observation (index : ℕ) (outcome : GraphObservationOutcome) (observedAt : Timestamp)
  | nexusObservation (index : ℕ) (outcome : GraphObservationOutcome) (observedAt : Timestamp)
      (origin : String) (httpStatus : Option ℕ)
      (category : Option GraphOperationalErrorCategory) (nextDueAt : Option Timestamp)
      (failureCount : ℕ)
  | invalidResponse (index : ℕ) (observedAt : Timestamp) (origin : String)
      (httpStatus : Option ℕ)

namespace Recording

def apply (s : GraphTaskSnapshotV1) : Recording → Except String GraphTaskSnapshotV1
  | observation i outcome t => s.recordObservation i outcome t
  | nexusObservation i outcome t origin status category due count =>
    s.recordNexusObservation i outcome t origin status category due count
  | invalidResponse i t origin status => s.terminalizeInvalidNexusResponse i t origin status

/-- The predicate the call is about. -/
def index : Recording → ℕ
  | observation i _ _ | nexusObservation i _ _ _ _ _ _ _ | invalidResponse i _ _ _ => i

def outcome : Recording → GraphObservationOutcome
  | observation _ o _ | nexusObservation _ o _ _ _ _ _ _ => o
  | invalidResponse _ _ _ _ => .dependencyUnavailable

/-- The time the call records. -/
def observedAt : Recording → Timestamp
  | observation _ _ t | nexusObservation _ _ t _ _ _ _ _ | invalidResponse _ t _ _ => t

/-- A sequence of calls, each accepted. -/
def applyAll (s : GraphTaskSnapshotV1) (calls : List Recording) :
    Except String GraphTaskSnapshotV1 :=
  calls.foldlM apply s

end Recording

/-! ## What a recording does -/

/-- What an accepted recording does: the predicate at its index is observed
    anew, and its sticky evidence is kept or taken from the new observation. -/
structure Records (s t : GraphTaskSnapshotV1) (i : ℕ) (outcome : GraphObservationOutcome)
    (observedAt : Timestamp) : Prop where
  pending : s.root = .pending
  window : s.acceptedAt ≤ observedAt ∧ observedAt ≤ s.deadlineAt
  valid : t.validate = .ok ()
  state : ∃ p p' o, s.predicates[i]? = some p ∧ t = s.setPredicate i p' ∧
    p'.predicate = p.predicate ∧ p.terminalInvalid = false ∧
    p'.latestObservation = some o ∧ o.outcome = outcome ∧ o.observedAt = observedAt ∧
    (p'.firstTrueObservation = p.firstTrueObservation ∨
      outcome = .true_ ∧ p'.firstTrueObservation = some o)

theorem GraphPredicateState.observe_observeNexus (p : GraphPredicateState)
    (outcome : GraphObservationOutcome) (observedAt : Timestamp) (origin : Option String)
    (status : Option ℕ) (due : Option Timestamp) (count : ℕ) :
    { p.observe ⟨outcome, observedAt, none, none⟩ with
      latestObservation := some ⟨outcome, observedAt, origin, status⟩
      firstTrueObservation := if outcome = .true_ then some ⟨outcome, observedAt, origin, status⟩
        else (p.observe ⟨outcome, observedAt, none, none⟩).firstTrueObservation
      nextDueAt := due
      operationalFailureCount := count } =
      p.observeNexus ⟨outcome, observedAt, origin, status⟩ due count := by
  unfold observe observeNexus
  by_cases htrue : outcome = .true_ <;> simp [htrue]

namespace GraphTaskSnapshotV1

variable {s t : GraphTaskSnapshotV1} {i count : ℕ} {p p' : GraphPredicateState}
  {o : GraphPredicateObservation} {outcome : GraphObservationOutcome} {observedAt : Timestamp}
  {category : Option GraphOperationalErrorCategory} {origin : String} {status : Option ℕ}
  {due : Option Timestamp}

theorem replace_eq_ok : s.replace i p = .ok t ↔ t.validate = .ok () ∧ t = s.setPredicate i p := by
  rw [replace, seq_eq_ok, pure_eq_ok]
  constructor
  · rintro ⟨hv, rfl⟩
    exact ⟨hv, rfl⟩
  · rintro ⟨hv, rfl⟩
    exact ⟨hv, rfl⟩

theorem predicateAt_eq_ok : s.predicateAt i = .ok p ↔ s.predicates[i]? = some p := by
  rw [predicateAt, okOr_eq_ok]

theorem getElem?_setPredicate
    (h : s.predicates[i]? = some p) : (s.setPredicate i p').predicates[i]? = some p' := by
  obtain ⟨hi, -⟩ := List.getElem?_eq_some_iff.1 h
  exact List.getElem?_set_self hi

theorem setPredicate_setPredicate (s : GraphTaskSnapshotV1) (i : ℕ) (p p' : GraphPredicateState) :
    (s.setPredicate i p).setPredicate i p' = s.setPredicate i p' := by
  simp only [setPredicate, List.set_set]

theorem predicates_setPredicate
    (hp : s.predicates[i]? = some p) (hpred : p'.predicate = p.predicate) :
    (s.setPredicate i p').predicates.map (·.predicate) = s.predicates.map (·.predicate) := by
  obtain ⟨hi, hget⟩ := List.getElem?_eq_some_iff.1 hp
  rw [setPredicate, List.map_set, hpred, ← hget]
  refine List.ext_getElem? fun j => ?_
  rw [List.getElem?_set]
  split
  · rename_i hij
    subst hij
    simp [hi]
  · rfl

theorem not_terminalInvalid_of_origin (hv : s.validate = .ok ()) (hp : p ∈ s.predicates)
    (hl : p.latestObservation = some o) (ho : o.origin = none) : p.terminalInvalid = false := by
  have hpred := (valid_of_validate hv).predicates p hp
  simp only [GraphPredicateState.validate, seq_eq_ok, refuse_eq_ok] at hpred
  obtain ⟨-, -, hterm, -⟩ := hpred
  by_contra hinvalid
  simp [hinvalid, GraphPredicateState.terminalEvidence, hl, ho] at hterm

/-- **One observation**: when it is accepted, and what it leads to. -/
theorem recordObservation_eq_ok : s.recordObservation i outcome observedAt = .ok t ↔
      s.validate = .ok () ∧ s.root = .pending ∧
      (s.acceptedAt ≤ observedAt ∧ observedAt ≤ s.deadlineAt) ∧
      ∃ p, s.predicates[i]? = some p ∧
        (∀ latest, p.latestObservation = some latest → latest.observedAt ≤ observedAt) ∧
        t.validate = .ok () ∧ t = s.setPredicate i (p.observe ⟨outcome, observedAt, none, none⟩) := by
  simp only [recordObservation, bind_eq_ok, refuse_eq_ok, predicateAt_eq_ok,
    replace_eq_ok, not_not, not_or, not_lt, gt_iff_lt]
  constructor
  · rintro ⟨_, hv, _, hroot, _, hwindow, p, hp, _, hlatest, ht, rfl⟩
    refine ⟨hv, hroot, hwindow, p, hp, fun latest hl => ?_, ht, rfl⟩
    simpa [hl] using hlatest
  · rintro ⟨hv, hroot, hwindow, p, hp, hlatest, ht, rfl⟩
    refine ⟨(), hv, (), hroot, (), hwindow, p, hp, (), ?_, ht, rfl⟩
    cases hl : p.latestObservation with
    | none => simp
    | some latest => simpa using hlatest latest hl

theorem records_of_recordObservation
    (h : s.recordObservation i outcome observedAt = .ok t) : Records s t i outcome observedAt := by
  obtain ⟨-, hroot, hwindow, p, hp, -, hv, ht⟩ := recordObservation_eq_ok.1 h
  refine ⟨hroot, hwindow, hv, p, _, _, hp, ht, rfl, ?_, rfl, rfl, rfl, ?_⟩
  · -- the new observation has no origin, so a terminal-invalid predicate refuses it
    have hmem : p.observe ⟨outcome, observedAt, none, none⟩ ∈ t.predicates := by
      rw [ht]
      exact List.mem_of_getElem? (getElem?_setPredicate hp)
    have hinvalid := not_terminalInvalid_of_origin hv hmem rfl rfl
    exact hinvalid
  · by_cases hfirst : outcome = .true_ ∧ p.firstTrueObservation.isNone
    · exact .inr ⟨hfirst.1, if_pos hfirst⟩
    · exact .inl (if_neg hfirst)

theorem recordOperational_eq_ok (h : recordOperational p o category count = .ok p') :
    p'.predicate = p.predicate ∧ p'.latestObservation = p.latestObservation ∧
      p'.firstTrueObservation = p.firstTrueObservation := by
  unfold recordOperational at h
  cases category with
  | none =>
    obtain ⟨-, h⟩ := seq_eq_ok.1 h
    rw [pure_eq_ok] at h
    exact h ▸ ⟨rfl, rfl, rfl⟩
  | some category =>
    obtain ⟨-, h⟩ := seq_eq_ok.1 h
    obtain ⟨-, h⟩ := seq_eq_ok.1 h
    rw [pure_eq_ok] at h
    exact h ▸ ⟨rfl, rfl, rfl⟩

/-- **One Nexus observation**: the predicate is observed with its origin, and the
    operational aggregate is updated. -/
theorem recordNexusObservation_eq_ok :
    s.recordNexusObservation i outcome observedAt origin status category due count = .ok t ↔
      ∃ u p p', s.recordObservation i outcome observedAt = .ok u ∧ s.predicates[i]? = some p ∧
        recordOperational (p.observeNexus ⟨outcome, observedAt, some origin, status⟩ due count)
          ⟨outcome, observedAt, some origin, status⟩ category count = .ok p' ∧
        t.validate = .ok () ∧ t = s.setPredicate i p' := by
  simp only [recordNexusObservation, bind_eq_ok, okOr_eq_ok, predicateAt_eq_ok,
    replace_eq_ok]
  constructor
  · rintro ⟨u, hu, q, hq, latest, hlatest, p', hp', hv, rfl⟩
    obtain ⟨-, -, -, p, hp, -, -, rfl⟩ := recordObservation_eq_ok.1 hu
    rw [getElem?_setPredicate hp, Option.some.injEq] at hq
    subst hq
    cases hlatest
    rw [setPredicate_setPredicate] at hv ⊢
    exact ⟨_, p, p', hu, hp, p.observe_observeNexus .. ▸ hp', hv, rfl⟩
  · rintro ⟨u, p, p', hu, hp, hp', hv, rfl⟩
    obtain ⟨-, -, -, q, hq, -, -, rfl⟩ := recordObservation_eq_ok.1 hu
    rw [hp, Option.some.injEq] at hq
    subst hq
    refine ⟨_, hu, _, getElem?_setPredicate hp, _, rfl, p', p.observe_observeNexus .. ▸ hp', ?_⟩
    rw [setPredicate_setPredicate]
    exact ⟨hv, rfl⟩

theorem records_of_recordNexusObservation
    (h : s.recordNexusObservation i outcome observedAt origin status category due count = .ok t) :
    Records s t i outcome observedAt := by
  obtain ⟨u, p, p', hu, hp, hp', hv, ht⟩ := recordNexusObservation_eq_ok.1 h
  obtain ⟨hpending, hwindow, -, q, _, _, hq, -, -, hinvalid, -⟩ := records_of_recordObservation hu
  rw [hp, Option.some.injEq] at hq
  subst hq
  obtain ⟨hpred, hlatest, hfirst⟩ := recordOperational_eq_ok hp'
  refine ⟨hpending, hwindow, hv, p, p', _, hp, ht, hpred, hinvalid, hlatest, rfl, rfl, ?_⟩
  rw [hfirst]
  by_cases htrue : outcome = .true_
  · exact .inr ⟨htrue, if_pos htrue⟩
  · exact .inl (if_neg htrue)

theorem records_of_terminalize
    (h : s.terminalizeInvalidNexusResponse i observedAt origin status = .ok t) :
    Records s t i .dependencyUnavailable observedAt := by
  unfold terminalizeInvalidNexusResponse at h
  obtain ⟨u, hu, h⟩ := bind_eq_ok.1 h
  obtain ⟨p₁, hp₁, h⟩ := bind_eq_ok.1 h
  obtain ⟨hv, ht⟩ := replace_eq_ok.1 h
  obtain ⟨hpending, hwindow, -, p, q, o, hp, rfl, hpred, hinvalid, hlat, hout, hat, hfirst⟩ :=
    records_of_recordNexusObservation hu
  rw [predicateAt_eq_ok, getElem?_setPredicate hp, Option.some.injEq] at hp₁
  subst hp₁
  rw [setPredicate_setPredicate] at ht
  exact ⟨hpending, hwindow, hv, p, _, o, hp, ht, hpred, hinvalid, hlat, hout, hat, hfirst⟩

end GraphTaskSnapshotV1

/-- **Recordings.**  Every accepted call observes the predicate at its index. -/
theorem records_of_apply {s t : GraphTaskSnapshotV1} {c : Recording} (h : c.apply s = .ok t) :
    Records s t c.index c.outcome c.observedAt := by
  cases c with
  | observation => exact records_of_recordObservation h
  | nexusObservation => exact records_of_recordNexusObservation h
  | invalidResponse => exact records_of_terminalize h

/-! ## The reducer -/

/-- What is known about a predicate. -/
inductive PredicateTruth where
  | true_
  | false_
  | unavailable
  | unknown
  | invalid
deriving DecidableEq, Repr

def GraphPredicateState.truth (p : GraphPredicateState) (deadlineReached : Bool) :
    PredicateTruth :=
  if p.firstTrueObservation.isSome then .true_
  else if p.terminalInvalid then .invalid
  else match p.latestObservation.map GraphPredicateObservation.outcome with
    | some .true_ => .true_
    | some .false_ => if deadlineReached then .false_ else .unknown
    | some .dependencyUnavailable => if deadlineReached then .unavailable else .unknown
    | none => if deadlineReached then .false_ else .unknown

/-- The operator applied to the predicates in `reduce_graph_snapshot`.  Without
    an operator the source indexes the first value. -/
def combineTruth (operator : Option GraphOperatorV2) (deadlineReached : Bool)
    (values : List PredicateTruth) : PredicateTruth :=
  match operator with
  | none => values.headD .unknown
  | some .and =>
    if values.contains .false_ then .false_
    else if values.contains .unknown then .unknown
    else if values.contains .invalid then .invalid
    else if values.contains .unavailable then .unavailable
    else .true_
  | some .or =>
    if values.contains .true_ then .true_
    else if values.contains .unknown then .unknown
    else if values.contains .invalid then .invalid
    else if values.contains .unavailable && deadlineReached then .unavailable
    else .false_

def PredicateTruth.root (deadlineReached : Bool) : PredicateTruth → GraphRootState
  | true_ => .satisfied
  | invalid => .failedInvalidResponse
  | false_ => if deadlineReached then .expired .false_ else .pending
  | unavailable => if deadlineReached then .expired .dependencyUnavailable else .pending
  | unknown => .pending

namespace GraphTaskSnapshotV1

/-- The root the reducer computes for a pending snapshot. -/
def nextRoot (s : GraphTaskSnapshotV1) (deadlineReached : Bool) : GraphRootState :=
  (combineTruth s.operator deadlineReached (s.predicates.map (·.truth deadlineReached))).root
    deadlineReached

def reduceGraphSnapshot (s : GraphTaskSnapshotV1) (now : Timestamp) :
    Except String GraphTaskSnapshotV1 := do
  s.validate
  s.validateObservationsNotAfter now
  if s.root ≠ .pending then return s
  let next := { s with root := s.nextRoot (decide (now ≥ s.deadlineAt)) }
  next.validate
  return next

end GraphTaskSnapshotV1

/-! ## What is known only grows -/

/-- A value that is not known may become any other; the others stay. -/
def PredicateTruth.Informs (v w : PredicateTruth) : Prop := v = .unknown ∨ v = w

/-- Values that are known without the deadline. -/
def PredicateTruth.Early (v : PredicateTruth) : Prop := v = .true_ ∨ v = .invalid ∨ v = .unknown

namespace PredicateTruth

theorem mem_of_informs {vs ws : List PredicateTruth} {v : PredicateTruth}
    (h : List.Forall₂ Informs vs ws) (hv : v ∈ vs) (hne : v ≠ .unknown) : v ∈ ws := by
  induction h with
  | nil => cases hv
  | cons hvw _ ih =>
    rcases List.mem_cons.1 hv with rfl | hv
    · rcases hvw with hunknown | rfl
      · exact absurd hunknown hne
      · exact List.mem_cons_self
    · exact List.mem_cons_of_mem _ (ih hv)

theorem eq_of_informs {vs ws : List PredicateTruth} (h : List.Forall₂ Informs vs ws)
    (hknown : .unknown ∉ vs) : vs = ws := by
  induction h with
  | nil => rfl
  | cons hvw _ ih =>
    rw [List.mem_cons, not_or] at hknown
    rw [ih hknown.2, hvw.resolve_left (Ne.symm hknown.1)]

end PredicateTruth

/-- **The tables are monotone.**  A combination of early values that is known
    stays as it is when more becomes known, before or after the deadline. -/
theorem combineTruth_informs {operator : Option GraphOperatorV2} {d d' : Bool}
    {vs ws : List PredicateTruth} (h : List.Forall₂ PredicateTruth.Informs vs ws)
    (hearly : ∀ v ∈ vs, v.Early) (hknown : combineTruth operator d vs ≠ .unknown) :
    combineTruth operator d' ws = combineTruth operator d vs := by
  have hfalse : .false_ ∉ vs := fun hv => by
    simpa [PredicateTruth.Early] using hearly _ hv
  have hunavailable : .unavailable ∉ vs := fun hv => by
    simpa [PredicateTruth.Early] using hearly _ hv
  match operator with
  | none =>
    cases h with
    | nil => rfl
    | cons hvw _ => exact (hvw.resolve_left hknown).symm
  | some .and =>
    have hall : .unknown ∉ vs := by
      intro hu
      exact hknown (by simp [combineTruth, hfalse, hu])
    rw [← PredicateTruth.eq_of_informs h hall]
    rfl
  | some .or =>
    by_cases htrue : .true_ ∈ vs
    · have htrue' := PredicateTruth.mem_of_informs h htrue (by decide)
      simp [combineTruth, htrue, htrue']
    · have hall : .unknown ∉ vs := by
        intro hu
        exact hknown (by simp [combineTruth, htrue, hu])
      rw [← PredicateTruth.eq_of_informs h hall]
      simp [combineTruth, hunavailable]

/-- The truth values that validation uses, among those of the reducer. -/
def TerminalPredicateTruth.toTruth : TerminalPredicateTruth → PredicateTruth
  | true_ => .true_
  | false_ => .false_
  | unavailable => .unavailable
  | invalid => .invalid

namespace GraphPredicateState

theorem truth_deadline (p : GraphPredicateState) : p.truth true = p.terminalTruth.toTruth := by
  unfold truth terminalTruth
  split
  · rfl
  · split
    · rfl
    · rcases p.latestObservation.map GraphPredicateObservation.outcome with _ | ⟨_ | _ | _⟩ <;> rfl

theorem truth_early {p : GraphPredicateState} {acceptedAt deadlineAt : Timestamp}
    (hv : p.validate acceptedAt deadlineAt = .ok ()) :
    p.truth false =
      if p.firstTrueObservation.isSome then .true_
      else if p.terminalInvalid then .invalid else .unknown := by
  simp only [validate, validateSticky, seq_eq_ok, refuse_eq_ok] at hv
  obtain ⟨-, -, -, ⟨-, hsticky, -⟩, -⟩ := hv
  unfold truth
  split
  · rfl
  · rename_i hfirst
    split
    · rfl
    · cases hl : p.latestObservation with
      | none => rfl
      | some o =>
        rw [Option.not_isSome_iff_eq_none] at hfirst
        cases ho : o.outcome <;> simp_all

end GraphPredicateState

theorem combineTerminal_toTruth (operator : Option GraphOperatorV2)
    {values : List TerminalPredicateTruth} (hne : values ≠ []) :
    combineTruth operator true (values.map (·.toTruth)) =
      (combineTerminal operator values).toTruth := by
  have hmem (v : TerminalPredicateTruth) :
      (values.map (·.toTruth)).contains v.toTruth = values.contains v := by
    have hinj : Function.Injective TerminalPredicateTruth.toTruth := by
      intro a b hab
      cases a <;> cases b <;> first | rfl | cases hab
    rw [Bool.eq_iff_iff, List.contains_iff_mem, List.contains_iff_mem,
      List.mem_map_of_injective hinj]
  have hunknown : (values.map (·.toTruth)).contains PredicateTruth.unknown = false := by
    rw [List.contains_eq_mem, decide_eq_false_iff_not, List.mem_map]
    rintro ⟨v, -, hv⟩
    cases v <;> cases hv
  have htrue : (values.map (·.toTruth)).contains PredicateTruth.true_ = _ := hmem .true_
  have hfalse : (values.map (·.toTruth)).contains PredicateTruth.false_ = _ := hmem .false_
  have hinvalid : (values.map (·.toTruth)).contains PredicateTruth.invalid = _ := hmem .invalid
  have hunavailable : (values.map (·.toTruth)).contains PredicateTruth.unavailable = _ :=
    hmem .unavailable
  match operator with
  | none =>
    obtain ⟨v, vs, rfl⟩ := List.exists_cons_of_ne_nil hne
    rfl
  | some .and =>
    simp only [combineTruth, combineTerminal, hfalse, hunknown, hinvalid, hunavailable,
      Bool.false_eq_true, if_false]
    split_ifs <;> rfl
  | some .or =>
    simp only [combineTruth, combineTerminal, htrue, hunknown, hinvalid, hunavailable,
      Bool.false_eq_true, if_false, Bool.and_true]
    split_ifs <;> rfl

/-- **One table.**  The root validation expects is the root of the reducer once
    the deadline has passed. -/
theorem GraphTaskSnapshotV1.terminalRootFromObservations_eq {s : GraphTaskSnapshotV1}
    (hne : s.predicates ≠ []) : s.terminalRootFromObservations = s.nextRoot true := by
  have hmap : s.predicates.map (·.truth true) =
      (s.predicates.map (·.terminalTruth)).map (·.toTruth) := by
    rw [List.map_map]
    exact List.map_congr_left fun p _ => p.truth_deadline
  rw [nextRoot, hmap, combineTerminal_toTruth _ (by simpa using hne), terminalRootFromObservations]
  cases combineTerminal s.operator (s.predicates.map GraphPredicateState.terminalTruth) <;> rfl

/-! ## Early verdicts are final -/

theorem forall₂_set {α β : Type} {R : α → β → Prop} {l : List α} {m : List β} {i : ℕ} {b b' : β}
    (h : List.Forall₂ R l m) (hb : m[i]? = some b) (hR : ∀ a, R a b → R a b') :
    List.Forall₂ R l (m.set i b') := by
  induction h generalizing i with
  | nil => exact .nil
  | cons hab htail ih =>
    cases i with
    | zero =>
      cases hb
      exact .cons (hR _ hab) htail
    | succ i => exact .cons hab (ih hb)

/-- The second state of a predicate keeps what the first has settled: sticky
    evidence, and the state of an invalid predicate. -/
structure GraphPredicateState.Settles (p q : GraphPredicateState) : Prop where
  sticky : p.firstTrueObservation.isSome → q.firstTrueObservation.isSome
  invalid : p.terminalInvalid = true → q = p

/-- The second snapshot is a later, still pending state of the first. -/
structure GraphTaskSnapshotV1.Extends (s t : GraphTaskSnapshotV1) : Prop where
  valid : t.validate = .ok ()
  pending : t.root = .pending
  operator : t.operator = s.operator
  deadline : t.deadlineAt = s.deadlineAt
  predicates : List.Forall₂ GraphPredicateState.Settles s.predicates t.predicates

namespace GraphTaskSnapshotV1.Extends

variable {s t u : GraphTaskSnapshotV1}

theorem refl (hv : s.validate = .ok ()) (hp : s.root = .pending) : s.Extends s :=
  ⟨hv, hp, rfl, rfl, List.forall₂_same.2 fun _ _ => ⟨id, fun _ => rfl⟩⟩

theorem record {i : ℕ} {outcome : GraphObservationOutcome} {observedAt : Timestamp}
    (h : s.Extends t) (hr : Records t u i outcome observedAt) : s.Extends u := by
  obtain ⟨hpending, -, hv, p, p', o, hp, rfl, -, hinvalid, -, -, -, hfirst⟩ := hr
  refine ⟨hv, hpending, h.operator, h.deadline, forall₂_set h.predicates hp fun q hq => ?_⟩
  refine ⟨fun hsome => ?_, fun hbad => ?_⟩
  · rcases hfirst with hkept | ⟨-, hnew⟩
    · rw [hkept]
      exact hq.sticky hsome
    · rw [hnew]
      rfl
  · rw [hq.invalid hbad] at hinvalid
    rw [hinvalid] at hbad
    cases hbad

theorem applyAll {calls : List Recording} (h : s.Extends t)
    (hc : Recording.applyAll t calls = .ok u) : s.Extends u := by
  unfold Recording.applyAll at hc
  induction calls generalizing t with
  | nil =>
    rw [List.foldlM_nil, pure_eq_ok] at hc
    exact hc ▸ h
  | cons c calls ih =>
    rw [List.foldlM_cons] at hc
    obtain ⟨t', hone, hrest⟩ := bind_eq_ok.1 hc
    exact ih (h.record (records_of_apply hone)) hrest

theorem informs (h : s.Extends t) (hv : s.validate = .ok ()) (d : Bool) :
    List.Forall₂ PredicateTruth.Informs (s.predicates.map (·.truth false))
      (t.predicates.map (·.truth d)) := by
  rw [List.forall₂_map_left_iff, List.forall₂_map_right_iff]
  have hvalid := (valid_of_validate hv).predicates
  refine ((List.forall₂_and_left _ _).2 ⟨hvalid, h.predicates⟩).imp fun p q hpq => ?_
  obtain ⟨hp, hsettles⟩ := hpq
  rw [PredicateTruth.Informs, GraphPredicateState.truth_early hp]
  by_cases hfirst : p.firstTrueObservation.isSome
  · have hfirst' := hsettles.sticky hfirst
    exact .inr (by rw [if_pos hfirst, GraphPredicateState.truth, if_pos hfirst'])
  · by_cases hinvalid : p.terminalInvalid
    · rw [hsettles.invalid hinvalid, if_neg hfirst, if_pos hinvalid, GraphPredicateState.truth,
        if_neg hfirst, if_pos hinvalid]
      exact .inr rfl
    · exact .inl (by rw [if_neg hfirst, if_neg hinvalid])

theorem nextRoot_eq (h : s.Extends t) (hv : s.validate = .ok ())
    (hroot : s.nextRoot false ≠ .pending) (d : Bool) : t.nextRoot d = s.nextRoot false := by
  have hearly : ∀ v ∈ s.predicates.map (·.truth false), v.Early := by
    intro v hmem
    obtain ⟨p, hp, rfl⟩ := List.mem_map.1 hmem
    rw [GraphPredicateState.truth_early ((valid_of_validate hv).predicates p hp)]
    split_ifs <;> simp [PredicateTruth.Early]
  have hknown : combineTruth s.operator false (s.predicates.map (·.truth false)) ≠ .unknown := by
    intro hu
    exact hroot (by rw [nextRoot, hu, PredicateTruth.root])
  have heq : combineTruth s.operator d (t.predicates.map (·.truth d)) =
      combineTruth s.operator false (s.predicates.map (·.truth false)) :=
    combineTruth_informs (h.informs hv d) hearly hknown
  rw [nextRoot, h.operator, heq]
  unfold nextRoot at hroot ⊢
  revert hroot
  cases combineTruth s.operator false (s.predicates.map (·.truth false)) <;>
    simp [PredicateTruth.root]

end GraphTaskSnapshotV1.Extends

namespace GraphTaskSnapshotV1

theorem validateObservationsNotAfter_eq_ok {s : GraphTaskSnapshotV1} {now : Timestamp} :
    s.validateObservationsNotAfter now = .ok () ↔
      ∀ p ∈ s.predicates, ∀ o ∈ p.observations, o.observedAt ≤ now := by
  unfold validateObservationsNotAfter
  split
  · rename_i hlate
    simp only [List.any_eq_true, decide_eq_true_eq] at hlate
    obtain ⟨p, hp, o, ho, hlt⟩ := hlate
    exact ⟨(nomatch ·), fun h => absurd (h p hp o ho) (not_le.2 hlt)⟩
  · rename_i hlate
    simp only [List.any_eq_true, decide_eq_true_eq, not_exists, not_and, not_lt] at hlate
    exact ⟨fun _ => hlate, fun _ => rfl⟩

theorem validate_root {s : GraphTaskSnapshotV1} (hv : s.validate = .ok ()) {root : GraphRootState}
    (hroot : root = .pending ∨ root = s.terminalRootFromObservations) :
    { s with root }.validate = .ok () := by
  simp only [validate, seq_eq_ok, refuse_eq_ok] at hv ⊢
  obtain ⟨h₁, h₂, h₃, h₄, h₅, h₆, h₇, h₈, h₉, h₁₀, -⟩ := hv
  exact ⟨h₁, h₂, h₃, h₄, h₅, h₆, h₇, h₈, h₉, h₁₀, fun hbad => hroot.elim hbad.1 hbad.2⟩

theorem reduceGraphSnapshot_pending {s t : GraphTaskSnapshotV1} {now : Timestamp}
    (hp : s.root = .pending) : s.reduceGraphSnapshot now = .ok t ↔
      s.validate = .ok () ∧ s.validateObservationsNotAfter now = .ok () ∧
        t.validate = .ok () ∧ t = { s with root := s.nextRoot (decide (now ≥ s.deadlineAt)) } := by
  rw [reduceGraphSnapshot, seq_eq_ok, seq_eq_ok, if_neg (not_not.2 hp),
    seq_eq_ok, pure_eq_ok]
  constructor
  · rintro ⟨hv, hobs, hnext, rfl⟩
    exact ⟨hv, hobs, hnext, rfl⟩
  · rintro ⟨hv, hobs, hnext, rfl⟩
    exact ⟨hv, hobs, hnext, rfl⟩

end GraphTaskSnapshotV1

/-- **Early verdicts are final.**  If the reducer finds a root before the
    deadline, then the pending snapshot, after any recordings it accepts, is
    reduced to the same root at every time, before or after the deadline, that
    is not earlier than a recorded observation; at the other times the reducer
    refuses to evaluate. -/
theorem early_verdict_final {s r t : GraphTaskSnapshotV1} {now : Timestamp}
    {calls : List Recording} (hv : s.validate = .ok ()) (hp : s.root = .pending)
    (hnow : now < s.deadlineAt) (hr : s.reduceGraphSnapshot now = .ok r)
    (hroot : r.root ≠ .pending) (hc : Recording.applyAll s calls = .ok t) (now' : Timestamp) :
    ((∀ p ∈ t.predicates, ∀ o ∈ p.observations, o.observedAt ≤ now') →
      t.reduceGraphSnapshot now' = .ok { t with root := r.root }) ∧
    ((∃ p ∈ t.predicates, ∃ o ∈ p.observations, now' < o.observedAt) →
      t.reduceGraphSnapshot now' = .error "graph observation is later than evaluation time") := by
  have hext := (Extends.refl hv hp).applyAll hc
  obtain ⟨-, -, -, rfl⟩ := (reduceGraphSnapshot_pending hp).1 hr
  rw [decide_eq_false (not_le.2 hnow)] at hroot ⊢
  refine ⟨fun hobs => ?_, fun hlate => ?_⟩
  · have hne : t.predicates ≠ [] := by
      intro hnil
      have hlen := (valid_of_validate hext.valid).nonempty
      rw [hnil] at hlen
      exact absurd hlen (by decide)
    have hvalid : { t with root := s.nextRoot false }.validate = .ok () := by
      refine validate_root hext.valid (.inr ?_)
      rw [terminalRootFromObservations_eq hne, hext.nextRoot_eq hv hroot]
    refine (reduceGraphSnapshot_pending hext.pending).2
      ⟨hext.valid, validateObservationsNotAfter_eq_ok.2 hobs, hvalid, ?_⟩
    rw [hext.nextRoot_eq hv hroot]
  · have herr : t.validateObservationsNotAfter now' =
        .error "graph observation is later than evaluation time" := by
      refine if_pos ?_
      simpa only [List.any_eq_true, decide_eq_true_eq] using hlate
    rw [reduceGraphSnapshot, hext.valid, herr]
    rfl

/-- The admitted snapshot after its predicate was observed to be true. -/
def followedSnapshot : GraphTaskSnapshotV1 :=
  { admittedGraphSnapshot with predicates :=
      [(GraphPredicateState.new (.follows .reader .creator)).observe
        ⟨.true_, Duration.seconds 10, none, none⟩] }

/-- The same predicate, observed to be false ten seconds later. -/
def unfollowedSnapshot : GraphTaskSnapshotV1 :=
  { followedSnapshot with predicates :=
      followedSnapshot.predicates.map (·.observe ⟨.false_, Duration.seconds 20, none, none⟩) }

/-- The verdict on the observed snapshot is the verdict after a later
    observation that is false, and after the deadline. -/
theorem followed_verdict_kept :
    Recording.applyAll followedSnapshot [.observation 0 .false_ (Duration.seconds 20)] =
        .ok unfollowedSnapshot ∧
      unfollowedSnapshot.reduceGraphSnapshot (Duration.seconds 700) =
        .ok { unfollowedSnapshot with root := .satisfied } := by
  have hr : followedSnapshot.reduceGraphSnapshot (Duration.seconds 10) =
      .ok { followedSnapshot with root := .satisfied } := by decide
  have hc : Recording.applyAll followedSnapshot [.observation 0 .false_ (Duration.seconds 20)] =
      .ok unfollowedSnapshot := by decide
  exact ⟨hc, (early_verdict_final (by decide) rfl (by decide) hr (by decide) hc _).1 (by decide)⟩

end PubkyLocks
