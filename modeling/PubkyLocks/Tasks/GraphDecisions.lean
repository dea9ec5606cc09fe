/-
  The decisions of the graph workers (`locks-server/src/graph_worker.rs`), and
  what they rest on.
-/
import PubkyLocks.Tasks.GraphReducer
import PubkyLocks.Tasks.PaymentDecisions

namespace PubkyLocks

open Checks

/-! ## The verifier -/

inductive NexusOperationalError where
  | redirect
  | rateLimited
  | nonSuccess
  | timeout
  | transport
deriving DecidableEq, Repr

/-- The category a failed call is recorded under. -/
def NexusOperationalError.category : NexusOperationalError → GraphOperationalErrorCategory
  | redirect => .redirect
  | rateLimited => .rateLimited
  | nonSuccess => .nonSuccess
  | timeout => .timeout
  | transport => .transport

/-- `NexusObservation`; the kind of an invalid response is not recorded. -/
inductive NexusObservation where
  | valid (value : Bool) (origin : String) (status : ℕ)
  | invalid (origin : String) (status : ℕ)
  | operational (kind : NexusOperationalError) (origin : String) (status : Option ℕ)
      (retryAfterSeconds : Option ℕ)
deriving DecidableEq, Repr

def NexusObservation.outcome : NexusObservation → GraphObservationOutcome
  | valid true _ _ => .true_
  | valid false _ _ => .false_
  | invalid _ _ | operational _ _ _ _ => .dependencyUnavailable

/-- The answer to one call of the verifier: the predicate it was made for, the
    `TimedNexusObservation`, and the byte the retry jitter draws. -/
structure GraphAnswer where
  index : ℕ
  observation : NexusObservation
  observedAt : Timestamp
  random : ℕ
deriving DecidableEq, Repr

/-! ## The worker -/

def FALSE_REPOLL_SECONDS : ℕ := 5

def OPERATIONAL_BACKOFF_SECONDS : List ℕ := [1, 2, 4, 8, 16, 30]

def PER_TASK_CONCURRENCY : ℕ := 8

/-- `OsGraphRetryJitter::jitter` of a number of seconds, in milliseconds. -/
def jitterMillis (random seconds : ℕ) : ℕ :=
  min (seconds * 1000 * (80 + random % 41)) (2 ^ 64 - 1) / 100

def clampDue (now : Timestamp) (delayMillis : ℕ) (deadline : Timestamp) : Timestamp :=
  min (now + (min delayMillis (2 ^ 63 - 1) : ℕ) * 1000000) deadline

def operationalDelay (failures : ℕ) (retryAfterSeconds : Option ℕ) (random : ℕ) : ℕ :=
  match retryAfterSeconds with
  | some seconds => min seconds 60 * 1000
  | none =>
    jitterMillis random (OPERATIONAL_BACKOFF_SECONDS[min (failures - 1) 5]?.getD 30)

def applyObservation (s : GraphTaskSnapshotV1) (a : GraphAnswer) :
    Except String GraphTaskSnapshotV1 :=
  match a.observation with
  | .valid true origin status =>
    s.recordNexusObservation a.index .true_ a.observedAt origin (some status) none none 0
  | .valid false origin status =>
    s.recordNexusObservation a.index .false_ a.observedAt origin (some status) none
      (some (clampDue a.observedAt (jitterMillis a.random FALSE_REPOLL_SECONDS) s.deadlineAt)) 0
  | .invalid origin status =>
    s.terminalizeInvalidNexusResponse a.index a.observedAt origin (some status)
  | .operational kind origin status retryAfterSeconds => do
    let p ← s.predicateAt a.index
    let failures := saturatingSucc p.operationalFailureCount
    s.recordNexusObservation a.index .dependencyUnavailable a.observedAt origin status
      (some kind.category)
      (some (clampDue a.observedAt (operationalDelay failures retryAfterSeconds a.random)
        s.deadlineAt)) failures

def GraphPredicateState.isOpen (p : GraphPredicateState) : Bool :=
  p.firstTrueObservation.isNone && !p.terminalInvalid

def nextDue (s : GraphTaskSnapshotV1) (now : Timestamp) : Timestamp :=
  let dues := (s.predicates.filter (·.isOpen)).filterMap (·.nextDueAt)
  min (max (dues.min?.getD s.deadlineAt) (now + 1000000)) s.deadlineAt

/-- The indices of the predicates a tick calls the verifier for. -/
def dueIndices (s : GraphTaskSnapshotV1) (dispatchNow : Timestamp) : List ℕ :=
  ((List.range s.predicates.length).filter fun i =>
    s.predicates[i]?.any fun p => p.isOpen && p.nextDueAt.all (· ≤ dispatchNow)).take
      PER_TASK_CONCURRENCY

/-- What a worker reads while it handles one claim: its clock at each point, and
    the answers of the verifier in the order they arrive. -/
structure GraphWorkerInput where
  dispatchNow : Timestamp
  answers : List GraphAnswer
  now : Timestamp
deriving DecidableEq

/-- The verifier answers calls that were made: one for a due predicate at most.
    A worker that has seen the deadline pass makes no further call. -/
def GraphWorkerInput.Answered (i : GraphWorkerInput) (s : GraphTaskSnapshotV1) : Prop :=
  (i.answers.map (·.index)).Nodup ∧ ∀ a ∈ i.answers, a.index ∈ dueIndices s i.dispatchNow

instance (i : GraphWorkerInput) (s : GraphTaskSnapshotV1) : Decidable (i.Answered s) :=
  inferInstanceAs (Decidable (_ ∧ _))

/-- The answers a worker waits for: none if the task is decided or the deadline
    has passed when it starts. -/
def GraphWorkerInput.heard (i : GraphWorkerInput) (s : GraphTaskSnapshotV1) : List GraphAnswer :=
  if s.root = .pending ∧ i.dispatchNow < s.deadlineAt then i.answers else []

/-- The repository call a worker ends with. -/
inductive GraphWorkerAction where
  | persist (snapshot : GraphTaskSnapshotV1)
  | schedule (snapshot : GraphTaskSnapshotV1) (now due : Timestamp)
deriving DecidableEq

def GraphWorkerAction.snapshot : GraphWorkerAction → GraphTaskSnapshotV1
  | persist s => s
  | schedule s _ _ => s

def persistTerminalOrPending (s : GraphTaskSnapshotV1) (now : Timestamp) : GraphWorkerAction :=
  if s.root ≠ .pending then .persist s else .schedule s now (nextDue s now)

/-- The answers of a tick, in the order they arrive; one that was observed after
    the deadline is dropped. -/
def applyAnswers (s : GraphTaskSnapshotV1) (answers : List GraphAnswer) :
    Except String GraphTaskSnapshotV1 :=
  answers.foldlM (fun s a => if a.observedAt > s.deadlineAt then pure s else applyObservation s a) s

/-- The part of `run_once` after a claim whose task is not being published. -/
def graphWorkerAction (s : GraphTaskSnapshotV1) (i : GraphWorkerInput) :
    Except String GraphWorkerAction :=
  if s.root ≠ .pending then .ok (persistTerminalOrPending s i.now)
  else if i.dispatchNow ≥ s.deadlineAt then do
    let t ← s.reduceGraphSnapshot i.dispatchNow
    pure (persistTerminalOrPending t i.dispatchNow)
  else if dueIndices s i.dispatchNow = [] then
    .ok (.schedule s i.dispatchNow (nextDue s i.dispatchNow))
  else do
    let observed ← applyAnswers s i.answers
    let t ← observed.reduceGraphSnapshot i.now
    pure (persistTerminalOrPending t i.now)

/-! ## The condition of a lock -/

namespace GraphTaskSnapshotV1

/-- The condition of the lock over its predicates: the single one, all of them,
    or one of them. -/
def Condition (s : GraphTaskSnapshotV1) (P : GraphPredicateState → Prop) : Prop :=
  match s.operator with
  | none => ∃ p, s.predicates = [p] ∧ P p
  | some .and => ∀ p ∈ s.predicates, P p
  | some .or => ∃ p ∈ s.predicates, P p

variable {s : GraphTaskSnapshotV1} {values : List TerminalPredicateTruth}

theorem Condition.imp {P Q : GraphPredicateState → Prop}
    (h : s.Condition P) (hPQ : ∀ p ∈ s.predicates, P p → Q p) : s.Condition Q := by
  unfold Condition at h ⊢
  split at h
  · obtain ⟨p, hs, hp⟩ := h
    exact ⟨p, hs, hPQ p (hs ▸ List.mem_singleton_self p) hp⟩
  · exact fun p hp => hPQ p hp (h p hp)
  · obtain ⟨p, hp, hP⟩ := h
    exact ⟨p, hp, hPQ p hp hP⟩

theorem singleton_of_validate (hv : s.validate = .ok ())
    (ho : s.operator = none) : ∃ p, s.predicates = [p] := by
  simp only [validate, seq_eq_ok, refuse_eq_ok] at hv
  obtain ⟨-, -, -, -, -, -, -, hcard, -⟩ := hv
  rw [ho] at hcard
  exact List.length_eq_one_iff.1 (by simpa using hcard)

theorem terminalTruth_eq_true_iff {p : GraphPredicateState} {acceptedAt deadlineAt : Timestamp}
    (hv : p.validate acceptedAt deadlineAt = .ok ()) :
    p.terminalTruth = .true_ ↔ p.firstTrueObservation.isSome := by
  simp only [GraphPredicateState.validate, GraphPredicateState.validateSticky, seq_eq_ok,
    refuse_eq_ok] at hv
  obtain ⟨-, -, -, ⟨-, hlatest, -⟩, -⟩ := hv
  constructor
  · intro htrue
    by_contra hfirst
    have hnone : p.firstTrueObservation.isNone := by simpa using hfirst
    simp only [GraphPredicateState.terminalTruth, hfirst, if_false] at htrue
    split_ifs at htrue
    cases hl : p.latestObservation with
    | none => simp [hl] at htrue
    | some o =>
      simp only [hl, Option.any_some, hnone, Bool.and_true, beq_iff_eq] at hlatest
      simp only [hl, Option.map_some] at htrue
      revert htrue hlatest
      cases o.outcome <;> simp
  · intro hfirst
    rw [GraphPredicateState.terminalTruth, if_pos hfirst]

theorem combineTerminal_and_eq_true :
    combineTerminal (some .and) values = .true_ ↔ ∀ v ∈ values, v = .true_ := by
  simp only [combineTerminal, List.contains_iff_mem]
  constructor
  · intro h v hv
    split_ifs at h with h₁ h₂ h₃
    cases v with
    | true_ => rfl
    | false_ => exact absurd hv h₁
    | invalid => exact absurd hv h₂
    | unavailable => exact absurd hv h₃
  · intro h
    have hother : ∀ v : TerminalPredicateTruth, v ≠ .true_ → v ∉ values :=
      fun v hne hv => hne (h v hv)
    rw [if_neg (hother .false_ (by decide)), if_neg (hother .invalid (by decide)),
      if_neg (hother .unavailable (by decide))]

theorem combineTerminal_or_eq_true :
    combineTerminal (some .or) values = .true_ ↔ .true_ ∈ values := by
  simp only [combineTerminal, List.contains_iff_mem]
  constructor
  · intro h
    by_contra hmem
    rw [if_neg hmem] at h
    split_ifs at h
  · exact fun h => if_pos h

/-- **The condition decides.**  The observations of a valid snapshot lead to a
    satisfied root exactly if its sticky evidence meets the condition. -/
theorem condition_iff (hv : s.validate = .ok ()) : s.terminalRootFromObservations = .satisfied ↔
      s.Condition fun p => p.firstTrueObservation.isSome := by
  have hpred := (valid_of_validate hv).predicates
  have hroot : s.terminalRootFromObservations = .satisfied ↔
      combineTerminal s.operator (s.predicates.map (·.terminalTruth)) = .true_ := by
    unfold terminalRootFromObservations
    cases combineTerminal s.operator (s.predicates.map (·.terminalTruth)) <;> simp
  rw [hroot]
  unfold Condition
  split
  · rename_i ho
    obtain ⟨p, hs⟩ := singleton_of_validate hv ho
    have hp : p ∈ s.predicates := hs ▸ List.mem_singleton_self p
    rw [ho, hs]
    simp only [combineTerminal, List.map_cons, List.map_nil, List.headD_cons, List.cons.injEq,
      and_true, exists_eq_left', terminalTruth_eq_true_iff (hpred p hp)]
  · rename_i ho
    rw [ho, combineTerminal_and_eq_true, List.forall_mem_map]
    exact forall₂_congr fun p hp => terminalTruth_eq_true_iff (hpred p hp)
  · rename_i ho
    rw [ho, combineTerminal_or_eq_true, List.mem_map]
    exact exists_congr fun p => and_congr_right fun hp => terminalTruth_eq_true_iff (hpred p hp)

/-- The later snapshot keeps the sticky evidence of the earlier one. -/
structure KeepsEvidence (s t : GraphTaskSnapshotV1) : Prop where
  binding : t.binding = s.binding
  sticky : ∀ (i : ℕ) (p q : GraphPredicateState), s.predicates[i]? = some p →
    t.predicates[i]? = some q → p.firstTrueObservation.isSome → q.firstTrueObservation.isSome

namespace KeepsEvidence

variable {t u : GraphTaskSnapshotV1}

theorem refl (s : GraphTaskSnapshotV1) : s.KeepsEvidence s := by
  refine ⟨rfl, fun i p q hp hq hfirst => ?_⟩
  rw [hp, Option.some.injEq] at hq
  exact hq ▸ hfirst

section
variable (h : s.KeepsEvidence t)
include h

theorem length_eq : t.predicates.length = s.predicates.length := by
  have hshape : t.predicates.map (·.predicate) = s.predicates.map (·.predicate) :=
    congrArg (fun b => b.2.2.2.2.2.2.2.2) h.binding
  simpa using congrArg List.length hshape

theorem exists_right {i : ℕ} {p : GraphPredicateState}
    (hp : s.predicates[i]? = some p) : ∃ q, t.predicates[i]? = some q := by
  obtain ⟨hi, -⟩ := List.getElem?_eq_some_iff.1 hp
  exact ⟨_, List.getElem?_eq_getElem (h.length_eq ▸ hi)⟩

theorem trans (h' : t.KeepsEvidence u) : s.KeepsEvidence u := by
  refine ⟨h'.binding.trans h.binding, fun i p r hp hr hfirst => ?_⟩
  obtain ⟨q, hq⟩ := h.exists_right hp
  exact h'.sticky i q r hq hr (h.sticky i p q hp hq hfirst)

theorem condition (hs : s.Condition fun p => p.firstTrueObservation.isSome) :
    t.Condition fun p => p.firstTrueObservation.isSome := by
  have ho : t.operator = s.operator := congrArg (fun b => b.2.2.2.2.2.2.2.1) h.binding
  have hlength := h.length_eq
  unfold Condition at hs ⊢
  rw [ho]
  split at hs
  · obtain ⟨p, hp, hfirst⟩ := hs
    rw [hp] at hlength
    obtain ⟨q, hq⟩ := List.length_eq_one_iff.1 hlength
    exact ⟨q, hq, h.sticky 0 p q (by rw [hp]; rfl) (by rw [hq]; rfl) hfirst⟩
  · intro q hq
    obtain ⟨i, hi⟩ := List.mem_iff_getElem?.1 hq
    obtain ⟨hlt, -⟩ := List.getElem?_eq_some_iff.1 hi
    have hp := List.getElem?_eq_getElem (hlength ▸ hlt)
    exact h.sticky i _ q hp hi (hs _ (List.mem_of_getElem? hp))
  · obtain ⟨p, hp, hfirst⟩ := hs
    obtain ⟨i, hi⟩ := List.mem_iff_getElem?.1 hp
    obtain ⟨q, hq⟩ := h.exists_right hi
    exact ⟨q, List.mem_of_getElem? hq, h.sticky i p q hi hq hfirst⟩

end

theorem of_validate (hb : t.binding = s.binding) (h : t.validateProgressFrom s = .ok ()) :
    s.KeepsEvidence t := by
  simp only [validateProgressFrom, seq_eq_ok, refuse_eq_ok, checkAll_eq_ok,
    not_not] at h
  obtain ⟨-, -, -, -, hall⟩ := h
  refine ⟨hb, fun i p q hp hq hfirst => ?_⟩
  have hzip : (s.predicates.zip t.predicates)[i]? = some (p, q) :=
    List.getElem?_zip_eq_some.2 ⟨hp, hq⟩
  have hone := hall _ (List.mem_of_getElem? hzip)
  simp only [validatePredicateProgress, seq_eq_ok, refuse_eq_ok] at hone
  obtain ⟨-, hsticky, -⟩ := hone
  by_contra hnone
  refine hsticky ⟨hfirst, fun heq => hnone ?_⟩
  rw [← heq]
  exact hfirst

end KeepsEvidence

end GraphTaskSnapshotV1

/-! ## Reports -/

/-- One answer of the verifier about a predicate of a task. -/
structure VerifierReport where
  taskId : TaskId
  creator : CreatorPubky
  reader : CreatorPubky
  predicate : GraphPredicateV2
  observation : NexusObservation
  observedAt : Timestamp
deriving DecidableEq

/-- The report says that the predicate is true for the creator and the reader of
    the task, within its window. -/
structure VerifierReport.Confirms (v : VerifierReport) (taskId : TaskId) (s : GraphTaskSnapshotV1)
    (p : GraphPredicateV2) : Prop where
  task : v.taskId = taskId
  creator : v.creator = s.creator
  reader : v.reader = s.reader
  predicate : v.predicate = p
  value : ∃ origin status, v.observation = .valid true origin status
  window : s.acceptedAt ≤ v.observedAt ∧ v.observedAt ≤ s.deadlineAt

def GraphTaskSnapshotV1.reports (s : GraphTaskSnapshotV1) (taskId : TaskId)
    (answers : List GraphAnswer) : List VerifierReport :=
  answers.filterMap fun a => s.predicates[a.index]?.map fun p =>
    ⟨taskId, s.creator, s.reader, p.predicate, a.observation, a.observedAt⟩

/-- Every sticky true observation of the snapshot was reported. -/
def Reported (reports : List VerifierReport) (taskId : TaskId) (s : GraphTaskSnapshotV1) : Prop :=
  ∀ p ∈ s.predicates, p.firstTrueObservation.isSome →
    ∃ v ∈ reports, v.Confirms taskId s p.predicate

variable {s t u : GraphTaskSnapshotV1} {reports reports' : List VerifierReport} {taskId : TaskId}

theorem Reported.mono (h : Reported reports taskId s) (hsub : ∀ v ∈ reports, v ∈ reports') :
    Reported reports' taskId s := by
  intro p hp hfirst
  obtain ⟨v, hv, hconf⟩ := h p hp hfirst
  exact ⟨v, hsub v hv, hconf⟩

variable {i : ℕ} {outcome : GraphObservationOutcome} {observedAt : Timestamp}

theorem Records.binding (h : Records s t i outcome observedAt) : t.binding = s.binding := by
  obtain ⟨-, -, -, p, p', o, hp, rfl, hpred, -⟩ := h
  have hset := GraphTaskSnapshotV1.predicates_setPredicate hp hpred
  simp only [GraphTaskSnapshotV1.binding, hset]
  rfl

theorem VerifierReport.Confirms.of_binding {v : VerifierReport} {p : GraphPredicateV2}
    (h : v.Confirms taskId s p) (hb : t.binding = s.binding) : v.Confirms taskId t p := by
  have hcreator : t.creator = s.creator := congrArg (·.1) hb
  have hreader : t.reader = s.reader := congrArg (fun b => b.2.2.2.2.1) hb
  have haccepted : t.acceptedAt = s.acceptedAt := congrArg (fun b => b.2.2.2.2.2.1) hb
  have hdeadline : t.deadlineAt = s.deadlineAt := congrArg (fun b => b.2.2.2.2.2.2.1) hb
  exact ⟨h.task, hcreator ▸ h.creator, hreader ▸ h.reader, h.predicate, h.value,
    haccepted ▸ hdeadline ▸ h.window⟩

theorem records_of_applyObservation {a : GraphAnswer} (h : applyObservation s a = .ok t) :
    Records s t a.index a.observation.outcome a.observedAt := by
  unfold applyObservation at h
  split at h <;> rename_i ha <;> rw [ha]
  · exact GraphTaskSnapshotV1.records_of_recordNexusObservation h
  · exact GraphTaskSnapshotV1.records_of_recordNexusObservation h
  · exact GraphTaskSnapshotV1.records_of_terminalize h
  · obtain ⟨p, -, h⟩ := bind_eq_ok.1 h
    exact GraphTaskSnapshotV1.records_of_recordNexusObservation h

theorem Reported.record (h : Reported reports taskId s) (hr : Records s t i outcome observedAt)
    (hv : outcome = .true_ → ∀ p, s.predicates[i]? = some p →
      ∃ v ∈ reports, v.Confirms taskId s p.predicate) : Reported reports taskId t := by
  have hb := hr.binding
  obtain ⟨-, -, -, p, p', o, hp, rfl, hpred, -, -, -, -, hfirst⟩ := hr
  have hlift : ∀ q : GraphPredicateState, (∃ v ∈ reports, v.Confirms taskId s q.predicate) →
      ∃ v ∈ reports, v.Confirms taskId (s.setPredicate i p') q.predicate := by
    rintro q ⟨v, hmem, hconf⟩
    exact ⟨v, hmem, hconf.of_binding hb⟩
  intro q hq hsome
  rcases List.mem_or_eq_of_mem_set hq with hold | rfl
  · exact hlift q (h q hold hsome)
  · refine hlift q ?_
    rw [hpred]
    rcases hfirst with hkept | ⟨htrue, -⟩
    · exact h p (List.mem_of_getElem? hp) (hkept ▸ hsome)
    · exact hv htrue p hp

theorem predicate_of_binding {p q : GraphPredicateState} (hb : t.binding = s.binding)
    (hq : t.predicates[i]? = some q) (hp : s.predicates[i]? = some p) :
    q.predicate = p.predicate := by
  have hshape : t.predicates.map (·.predicate) = s.predicates.map (·.predicate) :=
    congrArg (fun b => b.2.2.2.2.2.2.2.2) hb
  have hget := congrArg (·[i]?) hshape
  simpa only [List.getElem?_map, hq, hp, Option.map_some, Option.some.injEq] using hget

/-- **The answers of a tick** that are recorded are reported: the induction is on
    the answers, with the snapshot of the claim fixed. -/
theorem applyAnswers_reported {answers : List GraphAnswer} (h : Reported reports taskId t)
    (hb : t.binding = s.binding) (hu : applyAnswers t answers = .ok u) :
    u.binding = s.binding ∧ Reported (s.reports taskId answers ++ reports) taskId u := by
  unfold applyAnswers at hu
  induction answers generalizing t reports with
  | nil =>
    rw [List.foldlM_nil, pure_eq_ok] at hu
    exact hu ▸ ⟨hb, h⟩
  | cons a answers ih =>
    rw [List.foldlM_cons] at hu
    obtain ⟨t', hone, hrest⟩ := bind_eq_ok.1 hu
    have hkey : t'.binding = s.binding ∧ Reported (s.reports taskId [a] ++ reports) taskId t' := by
      have hmono : Reported (s.reports taskId [a] ++ reports) taskId t :=
        h.mono fun v hv => List.mem_append_right _ hv
      split at hone
      · rw [pure_eq_ok] at hone
        exact hone ▸ ⟨hb, hmono⟩
      · have hr := records_of_applyObservation hone
        refine ⟨hr.binding.trans hb, hmono.record hr fun htrue p hp => ?_⟩
        -- the predicate the call was made for has the same index in the claim
        have hlength : t.predicates.length = s.predicates.length := by
          have hshape : t.predicates.map (·.predicate) = s.predicates.map (·.predicate) :=
            congrArg (fun b => b.2.2.2.2.2.2.2.2) hb
          simpa using congrArg List.length hshape
        obtain ⟨hlt, -⟩ := List.getElem?_eq_some_iff.1 hp
        have hsp := List.getElem?_eq_getElem (hlength ▸ hlt)
        refine ⟨⟨taskId, s.creator, s.reader, (s.predicates[a.index]).predicate, a.observation,
          a.observedAt⟩, List.mem_append_left _ ?_, ?_⟩
        · simp only [GraphTaskSnapshotV1.reports, List.filterMap_cons, hsp, Option.map_some,
            List.filterMap_nil, List.mem_singleton]
        · have hconf : VerifierReport.Confirms ⟨taskId, s.creator, s.reader,
              (s.predicates[a.index]).predicate, a.observation, a.observedAt⟩ taskId t
              p.predicate := by
            refine ⟨rfl, congrArg (·.1) hb.symm, congrArg (fun b => b.2.2.2.2.1) hb.symm,
              (predicate_of_binding hb hp hsp).symm, ?_, hr.window⟩
            revert htrue
            cases a.observation with
            | valid value origin status =>
              cases value
              · rintro ⟨⟩
              · exact fun _ => ⟨origin, status, rfl⟩
            | invalid origin status => rintro ⟨⟩
            | operational kind origin status retry => rintro ⟨⟩
          exact hconf
    obtain ⟨hb', hu'⟩ := ih hkey.2 hkey.1 hrest
    refine ⟨hb', hu'.mono fun v hv => ?_⟩
    have happend : s.reports taskId (a :: answers) =
        s.reports taskId [a] ++ s.reports taskId answers := by
      simp only [GraphTaskSnapshotV1.reports, List.filterMap_cons, List.filterMap_nil]
      cases s.predicates[a.index]? <;> rfl
    rw [happend]
    simp only [List.mem_append] at hv ⊢
    tauto

theorem Reported.root (h : Reported reports taskId s) (root : GraphRootState) :
    Reported reports taskId { s with root } := by
  intro p hp hfirst
  obtain ⟨v, hv, hconf⟩ := h p hp hfirst
  exact ⟨v, hv, hconf.of_binding rfl⟩

theorem reduceGraphSnapshot_eq {now : Timestamp} (h : s.reduceGraphSnapshot now = .ok t) :
    ∃ root, t = { s with root } := by
  by_cases hp : s.root = .pending
  · obtain ⟨-, -, -, rfl⟩ := (GraphTaskSnapshotV1.reduceGraphSnapshot_pending hp).1 h
    exact ⟨_, rfl⟩
  · rw [GraphTaskSnapshotV1.reduceGraphSnapshot, seq_eq_ok, seq_eq_ok, if_pos hp,
      pure_eq_ok] at h
    obtain ⟨-, -, rfl⟩ := h
    exact ⟨_, rfl⟩

theorem persistTerminalOrPending_snapshot (s : GraphTaskSnapshotV1) (now : Timestamp) :
    (persistTerminalOrPending s now).snapshot = s := by
  unfold persistTerminalOrPending
  split <;> rfl

/-- **The worker** records no true observation but those the verifier reports. -/
theorem graphWorkerAction_reported {i : GraphWorkerInput} {a : GraphWorkerAction}
    (h : Reported reports taskId s) (ha : graphWorkerAction s i = .ok a) :
    Reported (s.reports taskId (i.heard s) ++ reports) taskId a.snapshot := by
  have hmono : Reported (s.reports taskId (i.heard s) ++ reports) taskId s :=
    h.mono fun v hv => List.mem_append_right _ hv
  unfold graphWorkerAction at ha
  split at ha
  · cases ha
    rw [persistTerminalOrPending_snapshot]
    exact hmono
  · rename_i hroot
    split at ha
    · obtain ⟨t, ht, ha⟩ := bind_eq_ok.1 ha
      rw [pure_eq_ok] at ha
      obtain ⟨root, rfl⟩ := reduceGraphSnapshot_eq ht
      rw [← ha, persistTerminalOrPending_snapshot]
      exact hmono.root root
    · rename_i hdeadline
      split at ha
      · cases ha
        exact hmono
      · have hheard : i.heard s = i.answers := if_pos ⟨not_not.1 hroot, not_le.1 hdeadline⟩
        obtain ⟨u, hu, ha⟩ := bind_eq_ok.1 ha
        obtain ⟨t, ht, ha⟩ := bind_eq_ok.1 ha
        rw [pure_eq_ok] at ha
        obtain ⟨root, rfl⟩ := reduceGraphSnapshot_eq ht
        rw [← ha, persistTerminalOrPending_snapshot, hheard]
        exact (applyAnswers_reported h rfl hu).2.root root

end PubkyLocks
