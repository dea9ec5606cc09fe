/-
  The lock that a call of `CreateContentLock::execute` publishes.

  A call works on the lock it asks for, or on an older one that it found in an
  intent or on the homeserver.  The older one differs from the requested one in
  its creation time only.
-/
import PubkyLocks.Access.EntitlementCheck
import PubkyLocks.Lib.Runs
import PubkyLocks.Publishing.CreateContentLock

namespace PubkyLocks

open CreateCall CreatePhase ContentLock PublishState

/-! ## The lock of a call -/

def CreatePhase.lock? : CreatePhase → Option (ContentLock × LockId)
  | readingWritten _ lockId lock | recoveringAgain _ lock lockId
  | reconcilingRecovered _ lock lockId | reserving lock lockId | beginning _ lock lockId
  | writing _ lock lockId _ | markingWritten lock lockId _ _ | reconciling lock lockId
  | markingPublished lock lockId => some (lock, lockId)
  | finished (.ok created) => some (created.contentLock, created.lockId)
  | _ => none

/-- The two locks differ in their creation time at most. -/
def ContentLock.SameRequest (a b : ContentLock) : Prop :=
  a = { b with createdAt := a.createdAt }

/-- The lock of the phase is the requested one but for its creation time. -/
def CreatePhase.Same (requested : ContentLock) (phase : CreatePhase) : Prop :=
  ∀ lock lockId, phase.lock? = some (lock, lockId) → lock.SameRequest requested

/-- The call keeps to the lock it asks for. -/
def CreateCall.Same (c : CreateCall) : Prop := CreatePhase.Same c.requested c.phase

variable {E : Externals} {c : CreateCall}

theorem ContentLock.SameRequest.refl (a : ContentLock) : a.SameRequest a := rfl

variable {a b original requested : ContentLock} {creator : CreatorPubky} {lockId : LockId}
  {token : Uuid} {r : OperationResult} {phase : CreatePhase} {stores stores' : PublishStores}
  {C : Codec} {s : PublishState}

theorem ContentLock.SameRequest.trans {d : ContentLock} (hab : a.SameRequest b)
    (hbd : b.SameRequest d) : a.SameRequest d := by
  unfold SameRequest at hab hbd ⊢
  rw [hbd] at hab
  exact hab

theorem ContentLock.SameRequest.creator_eq (h : a.SameRequest b) : a.creator = b.creator := by
  rw [h]

theorem ContentLock.SameRequest.paths_eq (h : a.SameRequest b) :
    publicationGuardedPaths a = publicationGuardedPaths b := by
  rw [h]
  rfl

theorem sameRequest_of_matches
    (h : publicationIntentMatchesRequest E creator lockId original requested) :
    original.SameRequest requested := by
  simp only [publicationIntentMatchesRequest, Bool.and_eq_true, beq_iff_eq] at h
  exact h.2.symm

theorem PublicationTables.recoverPublication_writeCompleted {t : PublicationTables}
    (h : t.recoverPublication E creator lockId requested = .ok (.writeCompleted token original)) :
    ∃ i ∈ t.intents, i.originalContentLock = original ∧
      publicationIntentMatchesRequest E creator lockId original requested := by
  unfold PublicationTables.recoverPublication at h
  split at h
  · cases h
  · split at h
    · cases h
    · rename_i i hfind
      have h := Except.ok.inj h
      split at h
      · cases h
      · rename_i hmatch
        split at h
        · cases h
          exact ⟨i, List.mem_of_find?_eq_some hfind, rfl, by simpa using hmatch⟩
        · cases h

theorem OperationResult.read_eq_ok {α : Type}
    {value : Except ApplicationError α} {a : α} (h : r.read value = .ok a) : value = .ok a := by
  cases r with
  | runs => exact h
  | fails e => cases h
  | lost e => cases h

/-! ## Phases -/

theorem CreatePhase.same_of_none (h : phase.lock? = none) : Same requested phase := by
  intro lock lockId hlock
  cases h.symm.trans hlock

theorem ContentLock.SameRequest.same {lock : ContentLock} (h : lock.SameRequest c.requested)
    (hlock : phase.lock? = some (lock, lockId)) :
    Same c.requested phase := by
  intro lock' lockId' h'
  cases hlock.symm.trans h'
  exact h

theorem same_error (e : ApplicationError) : Same c.requested (.finished (.error e)) :=
  same_of_none rfl

theorem same_reserving (lockId : LockId) : Same c.requested (.reserving c.requested lockId) :=
  (SameRequest.refl _).same rfl

theorem same_operate {α : Type} {op : Except ApplicationError (α × PublicationTables)}
    {next : Except ApplicationError α → CreatePhase}
    (h : stores.operate r op next = (stores', phase))
    (hnext : ∀ a, Same c.requested (next a)) :
    Same c.requested phase := by
  cases h
  exact hnext _

/-- **One operation of a call** keeps to the requested lock. -/
theorem same_advance (hsame : c.Same) (h : c.advance E stores r token = some (stores', phase)) :
    Same c.requested phase := by
  obtain ⟨requested, before⟩ := c
  cases before with
  | readingOwnership seen =>
    cases h
    refine answered_cases same_error fun t _ => ?_
    refine readPath_cases (fun _ _ => same_of_none rfl) fun l _ _ => ?_
    exact afterOwnership_cases same_error (fun _ lockId _ => same_reserving lockId)
      fun _ _ => same_of_none rfl
  | recovering ownership lockId =>
    cases h
    refine answered_cases same_error fun a ha => ?_
    refine afterRecovery_cases same_error (same_of_none rfl) ?_
    rintro token original rfl
    obtain ⟨i, -, rfl, hmatch⟩ :=
      PublicationTables.recoverPublication_writeCompleted (OperationResult.read_eq_ok ha)
    exact (sameRequest_of_matches hmatch).same rfl
  | rereadingOwnership ownership lockId seen =>
    cases h
    refine answered_cases same_error fun t _ => ?_
    refine readPath_cases (fun _ _ => same_of_none rfl) fun l _ _ => ?_
    exact afterReread_cases same_error (fun _ lockId _ => same_reserving lockId)
      (same_of_none rfl)
  | readingWritten status lockId original =>
    have horiginal := hsame original lockId rfl
    cases h
    refine answered_cases same_error fun a _ => ?_
    exact afterReadWritten_cases same_error fun _ => horiginal.same rfl
  | readingPublished status lockId =>
    cases h
    refine answered_cases same_error fun a _ => ?_
    refine afterReadPublished_cases same_error fun existing _ _ hexisting => ?_
    exact SameRequest.same hexisting rfl
  | recoveringAgain status lock lockId =>
    have hlock := hsame lock lockId rfl
    cases h
    refine answered_cases same_error fun a ha => ?_
    refine afterSecondRecovery_cases same_error (fun _ => hlock.same rfl)
      (hlock.same rfl) ?_
    rintro token original rfl
    obtain ⟨i, -, rfl, hmatch⟩ :=
      PublicationTables.recoverPublication_writeCompleted (OperationResult.read_eq_ok ha)
    exact ((sameRequest_of_matches hmatch).trans hlock).same rfl
  | reconcilingRecovered status lock lockId =>
    have hlock := hsame lock lockId rfl
    refine same_operate (Option.some.inj h) fun a => ?_
    refine answered_cases same_error fun b _ => ?_
    refine afterReconcile_cases same_error ?_
    split <;> exact hlock.same rfl
  | reserving lock lockId =>
    have hlock := hsame lock lockId rfl
    refine same_operate (Option.some.inj h) fun a => ?_
    exact answered_cases same_error fun _ _ => hlock.same rfl
  | beginning newly lock lockId =>
    have hlock := hsame lock lockId rfl
    refine same_operate (Option.some.inj h) fun a => ?_
    cases a with
    | ok a => exact hlock.same rfl
    | error e => cases newly <;> exact same_of_none rfl
  | compensatingPaths lockId error =>
    exact same_operate (Option.some.inj h) fun a => same_error error
  | writing newly lock lockId k =>
    have hlock := hsame lock lockId rfl
    cases r with
    | runs =>
      cases h
      exact hlock.same rfl
    | fails e =>
      cases h
      cases newly <;> exact same_of_none rfl
    | lost e =>
      cases h
      exact same_error e
  | abandoning lockId k error attempts =>
    refine same_operate (Option.some.inj h) fun a => ?_
    exact retried_cases same_error (fun _ => same_of_none rfl)
      fun _ => same_error _
  | compensating lockId k error attempts =>
    refine same_operate (Option.some.inj h) fun a => ?_
    exact retried_cases same_error (fun _ => same_of_none rfl)
      fun _ => same_error _
  | markingWritten lock lockId k attempts =>
    have hlock := hsame lock lockId rfl
    refine same_operate (Option.some.inj h) fun a => ?_
    refine retried_cases same_error (fun _ => hlock.same rfl) fun committed => ?_
    cases committed with
    | false => exact same_error _
    | true => exact hlock.same rfl
  | reconciling lock lockId =>
    have hlock := hsame lock lockId rfl
    refine same_operate (Option.some.inj h) fun a => ?_
    refine answered_cases same_error fun b _ => ?_
    exact afterReconcile_cases same_error (hlock.same rfl)
  | markingPublished lock lockId =>
    have hlock := hsame lock lockId rfl
    refine same_operate (Option.some.inj h) fun a => ?_
    exact answered_cases same_error fun _ _ => hlock.same rfl
  | finished result =>
    cases h
  | stopped =>
    cases h

/-- **Every event** keeps all calls to the requested locks. -/
theorem same_exec {s' : PublishState} {e : PublishEvent}
    (hsame : ∀ c ∈ s.calls, c.Same) (h : s.exec C E e = some s') : ∀ c ∈ s'.calls, c.Same := by
  cases e with
  | call request resources now =>
    cases h
    intro d hd
    rcases List.mem_append.1 hd with hd | hd
    · exact hsame d hd
    · rw [List.mem_singleton.1 hd]
      unfold start
      cases request.validated C E resources now <;>
        exact same_of_none rfl
  | advance i r token =>
    simp only [exec, Option.bind_eq_some_iff, Option.map_eq_some_iff] at h
    obtain ⟨c, hc, ⟨stores, phase⟩, hadv, rfl⟩ := h
    intro d hd
    rcases List.mem_or_eq_of_mem_set hd with hd | rfl
    · exact hsame d hd
    · show Same c.requested phase
      exact same_advance (hsame c (List.mem_of_getElem? hc)) hadv
  | stop i =>
    simp only [exec, Option.bind_eq_some_iff] at h
    obtain ⟨c, hc, h⟩ := h
    split at h
    · cases h
    · cases h
      intro d hd
      rcases List.mem_or_eq_of_mem_set hd with hd | rfl
      · exact hsame d hd
      · exact same_of_none rfl
  | land k =>
    simp only [exec, Option.map_eq_some_iff] at h
    obtain ⟨w, -, rfl⟩ := h
    exact hsame

theorem same_of_run {events : List PublishEvent}
    (hrun : Runs.Run (Runs.ofExec (PublishState.exec C E)) ⟨stores, []⟩ events s) :
    ∀ c ∈ s.calls, c.Same :=
  hrun.invariant (I := fun s => ∀ c ∈ s.calls, c.Same) (List.forall_mem_nil _)
    fun _ _ _ hsame hstep => same_exec hsame hstep

/-! ## Locks that can be opened -/

/-- Some evidence, with one result for a criterion at most, satisfies the lock. -/
def ContentLock.Openable (lock : ContentLock) : Prop :=
  ∃ result : VerificationResult, result.For lock ∧ evaluateEntitlement lock result = .ok true

/-- The evidence that every criterion of a lock is satisfied. -/
def ContentLock.fullEvidence (lock : ContentLock) : VerificationResult :=
  ⟨lock.criteria.map fun c => ⟨c.criterionId, true, 0, ⟨""⟩, c.verifierType⟩⟩

theorem ContentLock.fullEvidence_ids (lock : ContentLock) :
    lock.fullEvidence.criteria.map (·.criterionId) = lock.criteria.map (·.criterionId) := by
  simp [fullEvidence, Function.comp_def]

theorem ContentLock.fullEvidence_satisfies {lock : ContentLock} {c : Criterion}
    (hc : c ∈ lock.criteria) : lock.fullEvidence.Satisfies c :=
  ⟨_, List.mem_map.2 ⟨c, hc, rfl⟩, rfl, rfl⟩

/-- **Openable locks** are those with criteria that have different ids. -/
theorem ContentLock.openable_iff_wellFormed {lock : ContentLock} :
    lock.Openable ↔ lock.criteria ≠ [] ∧ (lock.criteria.map (·.criterionId)).Nodup := by
  constructor
  · rintro ⟨result, -, h⟩
    obtain ⟨ids, hids, -⟩ := Checks.bind_eq_ok.1 h
    exact contentLockCriterionIds_isOk.1 ⟨ids, hids⟩
  · rintro ⟨hne, hnodup⟩
    have hfor : lock.fullEvidence.For lock := by
      refine ⟨lock.fullEvidence_ids ▸ hnodup, fun r hr => ?_⟩
      rw [← lock.fullEvidence_ids]
      exact List.mem_map.2 ⟨r, hr, rfl⟩
    refine ⟨lock.fullEvidence, hfor, ?_⟩
    obtain ⟨b, hok, hb⟩ := evaluateEntitlement_isOk hne hnodup hfor
    rw [hok, hb.2]
    cases lock.lockLogic with
    | all cs => exact fun c hc => fullEvidence_satisfies hc
    | any cs =>
      obtain ⟨c, l, hcs⟩ := List.exists_cons_of_ne_nil hne
      have hc : c ∈ lock.criteria := hcs ▸ List.mem_cons_self
      exact ⟨c, hc, fullEvidence_satisfies hc⟩

/-- **Publication and evaluation.**  In every run of calls, from any stores, a
    lock that a call has published can be opened exactly if the requested criteria
    are not empty and have different ids. -/
theorem published_openable_iff (C : Codec) (E : Externals) (stores : PublishStores)
    (events : List PublishEvent) (s : PublishState)
    (hrun : Runs.Run (Runs.ofExec (PublishState.exec C E)) ⟨stores, []⟩ events s)
    (requested : ContentLock) (created : CreatedContentLock)
    (hcall : ⟨requested, .finished (.ok created)⟩ ∈ s.calls) :
    created.contentLock.Openable ↔
      requested.criteria ≠ [] ∧ (requested.criteria.map (·.criterionId)).Nodup := by
  have hsame := same_of_run hrun _ hcall created.contentLock created.lockId rfl
  rw [openable_iff_wellFormed]
  unfold SameRequest at hsame
  rw [hsame]

/-- The events of a call that runs without an interruption. -/
def publication (request : CreateContentLockRequest) : List PublishEvent :=
  .call request describedResources 0 :: List.replicate 7 (.advance 0 .runs ⟨1⟩)

/-- Two requests are accepted and published as locks that no evidence opens: one
    without criteria, and one with the same criterion twice. -/
theorem unopenable_locks_published : let E := Externals.constant (.replicate 7)
    let criterion : Criterion := ⟨"criterion-1", .devStatic, .null⟩
    let none' := { staticRequest with criteria := [] }
    let twice := { staticRequest with criteria := [criterion, criterion] }
    (∃ s created, Runs.execList (PublishState.exec .lenient E) (.init [] fun _ _ => none)
        (publication none') = some s ∧
      ⟨none'.contentLock 0, .finished (.ok created)⟩ ∈ s.calls ∧
      ¬ created.contentLock.Openable) ∧
    ∃ s created, Runs.execList (PublishState.exec .lenient E) (.init [] fun _ _ => none)
        (publication twice) = some s ∧
      ⟨twice.contentLock 0, .finished (.ok created)⟩ ∈ s.calls ∧
      ¬ created.contentLock.Openable := by
  intro E criterion none' twice
  constructor
  · have h : (Runs.execList (exec .lenient E) (.init [] fun _ _ => none)
        (publication none')).map (·.calls) = some [⟨none'.contentLock 0,
          .finished (.ok ⟨LockId.fromHash (.replicate 7), none'.contentLock 0⟩)⟩] := by
      decide +kernel
    obtain ⟨s, hs, hcalls⟩ := Option.map_eq_some_iff.1 h
    refine ⟨s, _, hs, hcalls ▸ List.mem_cons_self, ?_⟩
    rw [openable_iff_wellFormed]
    rintro ⟨hne, -⟩
    exact hne rfl
  · have h : (Runs.execList (exec .lenient E) (.init [] fun _ _ => none)
        (publication twice)).map (·.calls) = some [⟨twice.contentLock 0,
          .finished (.ok ⟨LockId.fromHash (.replicate 7), twice.contentLock 0⟩)⟩] := by
      decide +kernel
    obtain ⟨s, hs, hcalls⟩ := Option.map_eq_some_iff.1 h
    refine ⟨s, _, hs, hcalls ▸ List.mem_cons_self, ?_⟩
    rw [openable_iff_wellFormed]
    rintro ⟨-, hnodup⟩
    exact absurd hnodup (by decide)

/-- The lock of the request with one static criterion can be opened. -/
theorem static_lock_openable : let E := Externals.constant (.replicate 7)
    ∃ s created, Runs.execList (PublishState.exec .lenient E) (.init [] fun _ _ => none)
        (publication staticRequest) = some s ∧
      ⟨staticRequest.contentLock 0, .finished (.ok created)⟩ ∈ s.calls ∧
      created.contentLock.Openable := by
  intro E
  have h : (Runs.execList (exec .lenient E) (.init [] fun _ _ => none)
      (publication staticRequest)).map (·.calls) = some [⟨staticRequest.contentLock 0,
        .finished (.ok ⟨LockId.fromHash (.replicate 7), staticRequest.contentLock 0⟩)⟩] := by
      decide +kernel
  obtain ⟨s, hs, hcalls⟩ := Option.map_eq_some_iff.1 h
  have hmem : ⟨staticRequest.contentLock 0,
      .finished (.ok ⟨LockId.fromHash (.replicate 7), staticRequest.contentLock 0⟩)⟩ ∈ s.calls :=
    hcalls ▸ List.mem_cons_self
  refine ⟨s, _, hs, hmem, ?_⟩
  refine (published_openable_iff .lenient E _ _ s (Runs.run_of_execList _ hs) _ _ hmem).2 ⟨?_, ?_⟩
  · exact List.cons_ne_nil _ _
  · decide

end PubkyLocks
