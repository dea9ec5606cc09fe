/-
  The recording operations of a graph snapshot as the methods on `&mut self`
  that the source writes (`application/models/graph0conf.rs`): they edit a clone
  step by step, may fail after any edit, and assign the clone at the end.
-/
import PubkyLocks.Tasks.GraphReducer

namespace PubkyLocks

open GraphTaskSnapshotV1 Checks

/-! ## Methods -/

/-- A method on `&mut self`: it may fail after it has changed the snapshot. -/
abbrev Method := ExceptT String (StateM GraphTaskSnapshotV1)

namespace Method

variable {α β : Type}

def on (m : Method α) (s : GraphTaskSnapshotV1) : Except String α × GraphTaskSnapshotV1 :=
  m.run.run s

/-- A fallible computation that changes nothing. -/
def check (x : Except String α) : Method α := ExceptT.mk (pure x)

def onClone (s : GraphTaskSnapshotV1) (m : Method Unit) : Method GraphTaskSnapshotV1 :=
  check ((m.on s).1.map fun _ => (m.on s).2)

def recordObservation (i : ℕ) (outcome : GraphObservationOutcome) (observedAt : Timestamp) :
    Method Unit := do
  let self ← get
  check self.validate
  check (refuse (self.root ≠ .pending) "terminal graph task snapshot cannot accept observations")
  check (refuse (observedAt < self.acceptedAt ∨ observedAt > self.deadlineAt)
    "graph observation falls outside accepted task window")
  let predicate ← check (self.predicateAt i)
  check (refuse (predicate.latestObservation.any fun latest => observedAt < latest.observedAt)
    "graph observation precedes latest observation")
  let next := self.setPredicate i (predicate.observe ⟨outcome, observedAt, none, none⟩)
  check next.validate
  set next

def recordNexusObservation (i : ℕ) (outcome : GraphObservationOutcome) (observedAt : Timestamp)
    (origin : String) (httpStatus : Option ℕ) (category : Option GraphOperationalErrorCategory)
    (nextDueAt : Option Timestamp) (failureCount : ℕ) : Method Unit := do
  let self ← get
  let next ← onClone self (recordObservation i outcome observedAt)
  let predicate ← check (next.predicateAt i)
  let latest ← check
    (okOr predicate.latestObservation "graph predicate observation was not recorded")
  let o : GraphPredicateObservation := { latest with origin := some origin, httpStatus }
  let predicate ← check (recordOperational { predicate with
      latestObservation := some o
      firstTrueObservation := if outcome = .true_ then some o else predicate.firstTrueObservation
      nextDueAt
      operationalFailureCount := failureCount } o category failureCount)
  let next := next.setPredicate i predicate
  check next.validate
  set next

def terminalizeInvalidNexusResponse (i : ℕ) (observedAt : Timestamp) (origin : String)
    (httpStatus : Option ℕ) : Method Unit := do
  let self ← get
  let next ← onClone self
    (recordNexusObservation i .dependencyUnavailable observedAt origin httpStatus none none 0)
  let predicate ← check (next.predicateAt i)
  let next := next.setPredicate i { predicate with terminalInvalid := true }
  check next.validate
  set next

/-- What a method leaves that assigns the result of a function of the snapshot. -/
def settle (s : GraphTaskSnapshotV1) : Except String GraphTaskSnapshotV1 →
    Except String Unit × GraphTaskSnapshotV1
  | .ok t => (.ok (), t)
  | .error e => (.error e, s)

variable {s t : GraphTaskSnapshotV1} {m : Method Unit} {x : Except String α}
  {y : Except String GraphTaskSnapshotV1} {g : α → Except String GraphTaskSnapshotV1}

theorem on_check_bind {f : α → Method Unit} (h : ∀ a, x = .ok a → (f a).on s = settle s (g a)) :
    (check x >>= f).on s = settle s (x >>= g) := by
  cases x with
  | error e => rfl
  | ok a => exact h a rfl

theorem on_onClone_bind {f : GraphTaskSnapshotV1 → Method Unit}
    {g : GraphTaskSnapshotV1 → Except String GraphTaskSnapshotV1} (hm : m.on s = settle s y)
    (h : ∀ t, (f t).on s = settle s (g t)) : (onClone s m >>= f).on s = settle s (y >>= g) := by
  unfold onClone
  rw [hm]
  cases y with
  | error e => rfl
  | ok t => exact h t

theorem on_assign (i : ℕ) (p : GraphPredicateState) :
    (check (t.setPredicate i p).validate >>= fun _ => set (t.setPredicate i p)).on s =
      settle s (t.replace i p) :=
  on_check_bind fun _ _ => rfl

theorem on_recordObservation (i : ℕ) (outcome : GraphObservationOutcome) (observedAt : Timestamp) :
    (recordObservation i outcome observedAt).on s =
      settle s (s.recordObservation i outcome observedAt) := by
  show (check s.validate >>= _).on s = _
  refine on_check_bind fun _ _ => on_check_bind fun _ _ => on_check_bind fun _ _ => ?_
  exact on_check_bind fun p _ => on_check_bind fun _ _ => on_assign i _

theorem on_recordNexusObservation (i : ℕ) (outcome : GraphObservationOutcome)
    (observedAt : Timestamp) (origin : String) (httpStatus : Option ℕ)
    (category : Option GraphOperationalErrorCategory) (nextDueAt : Option Timestamp)
    (failureCount : ℕ) :
    (recordNexusObservation i outcome observedAt origin httpStatus category nextDueAt
        failureCount).on s =
      settle s (s.recordNexusObservation i outcome observedAt origin httpStatus category nextDueAt
        failureCount) := by
  refine on_onClone_bind (on_recordObservation i outcome observedAt) fun t => ?_
  exact on_check_bind fun p _ => on_check_bind fun o _ => on_check_bind fun q _ => on_assign i q

theorem on_terminalize (i : ℕ) (observedAt : Timestamp) (origin : String) (httpStatus : Option ℕ) :
    (terminalizeInvalidNexusResponse i observedAt origin httpStatus).on s =
      settle s (s.terminalizeInvalidNexusResponse i observedAt origin httpStatus) := by
  refine on_onClone_bind (on_recordNexusObservation ..) fun t => ?_
  exact on_check_bind fun p _ => on_assign i _

end Method

namespace Recording

def method : Recording → Method Unit
  | observation i outcome t => .recordObservation i outcome t
  | nexusObservation i outcome t origin status category due count =>
    .recordNexusObservation i outcome t origin status category due count
  | invalidResponse i t origin status => .terminalizeInvalidNexusResponse i t origin status

/-- **The methods** leave what the functions return. -/
theorem on_method (c : Recording) (s : GraphTaskSnapshotV1) :
    c.method.on s = Method.settle s (c.apply s) := by
  cases c with
  | observation => exact Method.on_recordObservation ..
  | nexusObservation => exact Method.on_recordNexusObservation ..
  | invalidResponse => exact Method.on_terminalize ..

end Recording

/-! ## What an accepted recording changes -/

/-- A predicate is observed no earlier than before, and no failure is forgotten. -/
structure GraphPredicateState.Grows (p p' : GraphPredicateState) : Prop where
  observed : ∀ o, p.latestObservation = some o →
    ∃ o', p'.latestObservation = some o' ∧ o.observedAt ≤ o'.observedAt
  failures : p.operationalFailureTotal ≤ p'.operationalFailureTotal

variable {s t : GraphTaskSnapshotV1} {p p' : GraphPredicateState} {i : ℕ}
  {outcome : GraphObservationOutcome} {observedAt : Timestamp} {origin : String}
  {status : Option ℕ} {category : Option GraphOperationalErrorCategory}
  {due : Option Timestamp} {count : ℕ}

theorem total_of_recordOperational {o : GraphPredicateObservation}
    (h : recordOperational p o category count = .ok p') :
    p.operationalFailureTotal ≤ p'.operationalFailureTotal := by
  unfold recordOperational at h
  cases category with
  | none =>
    obtain ⟨-, h⟩ := seq_eq_ok.1 h
    rw [pure_eq_ok.1 h]
  | some category =>
    obtain ⟨-, h⟩ := seq_eq_ok.1 h
    obtain ⟨-, h⟩ := seq_eq_ok.1 h
    rw [← pure_eq_ok.1 h]
    exact Nat.le_succ _

theorem grows_of_recordNexusObservation
    (h : s.recordNexusObservation i outcome observedAt origin status category due count = .ok t) :
    ∃ p p', s.predicates[i]? = some p ∧ t = s.setPredicate i p' ∧ p.Grows p' := by
  obtain ⟨u, p, p', hu, hp, hp', -, ht⟩ := recordNexusObservation_eq_ok.1 h
  obtain ⟨-, -, -, q, hq, hlatest, -, -⟩ := recordObservation_eq_ok.1 hu
  cases hp.symm.trans hq
  obtain ⟨-, hobserved, -⟩ := recordOperational_eq_ok hp'
  have htotal := total_of_recordOperational hp'
  exact ⟨p, p', hp, ht, fun o ho => ⟨_, hobserved, hlatest o ho⟩, htotal⟩

theorem grows_of_apply {c : Recording} (h : c.apply s = .ok t) :
    ∃ p p', s.predicates[c.index]? = some p ∧ t = s.setPredicate c.index p' ∧ p.Grows p' := by
  cases c with
  | observation i outcome observedAt =>
    obtain ⟨-, -, -, p, hp, hlatest, -, ht⟩ := recordObservation_eq_ok.1 h
    exact ⟨p, _, hp, ht, fun o ho => ⟨_, rfl, hlatest o ho⟩, le_rfl⟩
  | nexusObservation => exact grows_of_recordNexusObservation h
  | invalidResponse i observedAt origin status =>
    obtain ⟨u, hu, h⟩ := bind_eq_ok.1 h
    obtain ⟨q, hq, h⟩ := bind_eq_ok.1 h
    obtain ⟨-, ht⟩ := replace_eq_ok.1 h
    obtain ⟨p, p', hp, rfl, hgrows⟩ := grows_of_recordNexusObservation hu
    rw [predicateAt_eq_ok, getElem?_setPredicate hp] at hq
    cases hq
    rw [setPredicate_setPredicate] at ht
    exact ⟨p, _, hp, ht, hgrows.observed, hgrows.failures⟩

theorem firstTrue_of_terminalInvalid (hv : s.validate = .ok ()) (hp : p ∈ s.predicates)
    (hinvalid : p.terminalInvalid) : p.firstTrueObservation = none := by
  have hpred := (valid_of_validate hv).predicates p hp
  simp only [GraphPredicateState.validate, seq_eq_ok, refuse_eq_ok] at hpred
  obtain ⟨-, -, hterm, -⟩ := hpred
  by_contra hfirst
  simp [hinvalid, Option.isSome_iff_ne_none.2 hfirst] at hterm

/-- **Recording is atomic and local.**  A call that fails leaves the snapshot as
    it was; one that succeeds leaves a valid snapshot in which only the predicate
    at its index differs, observed no earlier and with no failure forgotten, and
    a predicate that was terminally invalid stays so without sticky evidence. -/
theorem recording_atomic (c : Recording) (s : GraphTaskSnapshotV1) :
    (∀ e, (c.method.on s).1 = .error e → (c.method.on s).2 = s) ∧
    ((c.method.on s).1 = .ok () →
      (c.method.on s).2.validate = .ok () ∧
      (∃ p p', s.predicates[c.index]? = some p ∧
        (c.method.on s).2 = { s with predicates := s.predicates.set c.index p' } ∧
        (∀ o, p.latestObservation = some o →
          ∃ o', p'.latestObservation = some o' ∧ o.observedAt ≤ o'.observedAt) ∧
        p.operationalFailureTotal ≤ p'.operationalFailureTotal) ∧
      ∀ (j : ℕ) p, s.predicates[j]? = some p → p.terminalInvalid →
        ∃ p', (c.method.on s).2.predicates[j]? = some p' ∧ p'.terminalInvalid ∧
          p'.firstTrueObservation = none) := by
  rw [c.on_method s]
  cases h : c.apply s with
  | error e => exact ⟨fun _ _ => rfl, nofun⟩
  | ok t =>
    refine ⟨nofun, fun _ => ?_⟩
    obtain ⟨p, p', hp, ht, hgrows⟩ := grows_of_apply h
    obtain ⟨-, -, hv, q, -, -, hq, -, -, hvalid, -⟩ := records_of_apply h
    cases hp.symm.trans hq
    refine ⟨hv, ⟨p, p', hp, ht, hgrows.observed, hgrows.failures⟩, fun j r hr hinvalid => ?_⟩
    -- the recorded predicate was not terminally invalid, the others are unchanged
    have hj : c.index ≠ j := by
      rintro rfl
      cases hp.symm.trans hr
      rw [hvalid] at hinvalid
      cases hinvalid
    have hr' : t.predicates[j]? = some r := by
      rw [ht]
      exact (List.getElem?_set_ne hj).trans hr
    exact ⟨r, hr', hinvalid,
      firstTrue_of_terminalInvalid hv (List.mem_of_getElem? hr') hinvalid⟩

end PubkyLocks
