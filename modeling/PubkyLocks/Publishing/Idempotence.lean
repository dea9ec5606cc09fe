/-
  Repeated calls of `CreateContentLock::execute`.

  A request is answered with a lock, or a write of a lock for it is marked as
  written.  From then on the lock stays the one of the request: a later call for
  it returns that lock, at any time, and a call for another request that shares a
  path is refused.
-/
import PubkyLocks.Publishing.Retries

namespace PubkyLocks

open PublishState CreateCall CreateContentLockRequest CreatePhase Checks Runs PublicationTables

/-! ## Requests -/

variable {C : Codec} {E : Externals} {resources : GuardedResourceRepository}
  {q q' : CreateContentLockRequest} {now now' : Timestamp}

theorem CreateContentLockRequest.validated_at (now' : Timestamp)
    (h : (q.validated C E resources now).isOk) : (q.validated C E resources now').isOk := by
  obtain ⟨lock, hlock⟩ := isOk_iff.1 h
  simp only [validated, seq_eq_ok] at hlock
  obtain ⟨hset, hparams, hpolicy, hcurrent, -⟩ := hlock
  refine isOk_iff.2 ⟨q.contentLock now', ?_⟩
  simp only [validated, seq_eq_ok]
  exact ⟨hset, hparams, hpolicy, hcurrent, rfl⟩

theorem CreateContentLockRequest.eq_of_sameRequest
    (h : (q.contentLock now).SameRequest (q'.contentLock now')) : q = q' := by
  cases q
  cases q'
  simp only [ContentLock.SameRequest, contentLock,
    ContentLock.mk.injEq] at h
  simp only [mk.injEq]
  obtain ⟨-, h₁, h₂, h₃, h₄, h₅, h₆, h₇, -⟩ := h
  exact ⟨h₁, h₂, h₃, h₄, h₅, h₆, h₇⟩

/-! ## One call among others -/

/-- The event is an operation of the call. -/
def LockEvent.operates (j : ℕ) : LockEvent → Bool
  | advance i _ _ => i == j
  | _ => false

/-- The operations of a call in a run. -/
def operations (j : ℕ) (events : List LockEvent) : ℕ := events.countP (LockEvent.operates j)

/-- A bound on the operations that a call of `n` paths has left while it only
    reads. -/
def CreatePhase.budget (n : ℕ) : CreatePhase → ℕ
  | readingOwnership seen => (n - seen.length) + n + 5
  | recovering _ _ => n + 4
  | rereadingOwnership _ _ seen => (n - seen.length) + 3
  | readingPublished _ _ => 2
  | recoveringAgain _ _ _ => 1
  | _ => 0

theorem budget_start (n : ℕ) : budget n (.readingOwnership []) = 2 * n + 5 := by
  simp only [budget, List.length_nil]
  omega

variable {s t : PublishState} {e : LockEvent} {j : ℕ} {c : CreateCall}

theorem call_of_execLock (h : s.execLock C E resources e = some t) (hc : s.calls[j]? = some c) :
    e.operates j = false ∧ t.calls[j]? = some c ∨
      (∃ r token stores phase, e = .advance j r token ∧
        c.advance E s.stores r token = some (stores, phase) ∧ t = s.setPhase j c stores phase) ∨
      e = .stop j ∧ c.phase.ended = false ∧ t = s.setPhase j c s.stores .stopped := by
  cases e with
  | call request now =>
    cases h
    obtain ⟨hlt, -⟩ := List.getElem?_eq_some_iff.1 hc
    exact .inl ⟨rfl, (List.getElem?_append_left hlt).trans hc⟩
  | advance i r token =>
    simp only [execLock, exec, Option.bind_eq_some_iff,
      Option.map_eq_some_iff] at h
    obtain ⟨d, hd, ⟨stores, phase⟩, hadv, rfl⟩ := h
    by_cases hij : i = j
    · subst hij
      cases hc.symm.trans hd
      exact .inr (.inl ⟨r, token, stores, phase, rfl, hadv, rfl⟩)
    · exact .inl ⟨beq_false_of_ne hij, (List.getElem?_set_ne hij).trans hc⟩
  | stop i =>
    simp only [execLock, exec, Option.bind_eq_some_iff] at h
    obtain ⟨d, hd, h⟩ := h
    split at h
    · cases h
    · rename_i hended
      cases h
      by_cases hij : i = j
      · subst hij
        cases hc.symm.trans hd
        exact .inr (.inr ⟨rfl, Bool.not_eq_true _ ▸ hended, rfl⟩)
      · exact .inl ⟨rfl, (List.getElem?_set_ne hij).trans hc⟩
  | land k =>
    simp only [execLock, exec, Option.map_eq_some_iff] at h
    obtain ⟨w, -, rfl⟩ := h
    exact .inl ⟨rfl, hc⟩
  | delete key =>
    cases h
    exact .inl ⟨rfl, hc⟩
  | withdraw key =>
    simp only [execLock] at h
    split at h
    · cases h
      exact .inl ⟨rfl, hc⟩
    · cases h

theorem PublishState.getElem?_setPhase (hc : s.calls[j]? = some c) (stores : PublishStores)
    (phase : CreatePhase) :
    (s.setPhase j c stores phase).calls[j]? = some ⟨c.requested, phase⟩ := by
  obtain ⟨hlt, -⟩ := List.getElem?_eq_some_iff.1 hc
  exact List.getElem?_set_self hlt

/-- **One call among others.**  If its operations keep `M` and use up its budget,
    from any state that meets an invariant, then so does every run. -/
theorem progress_of_run {ok : PublishState → LockEvent → Prop} {I : PublishState → Prop}
    {M : CreatePhase → Prop} {requested : ContentLock} {n : ℕ} {phase : CreatePhase}
    {events : List LockEvent}
    (hrun : Run (restrict (ofExec (execLock C E resources)) ok)
      s events t)
    (hc : s.calls[j]? = some ⟨requested, phase⟩) (hM : M phase) (hI : I s)
    (hinv : ∀ s e t, I s → ok s e → e ∈ events → s.execLock C E resources e = some t → I t)
    (hop : ∀ s r token phase stores phase', I s → ok s (.advance j r token) → M phase →
      advance E ⟨requested, phase⟩ s.stores r token = some (stores, phase') →
      M phase' ∧ phase'.budget n < phase.budget n)
    (hstop : ∀ s, ok s (.stop j) → M .stopped) :
    I t ∧ ∃ phase', t.calls[j]? = some ⟨requested, phase'⟩ ∧ M phase' ∧
      operations j events + phase'.budget n ≤ phase.budget n := by
  have hall : ∀ {before m}, Run (restrict (restrict
        (ofExec (execLock C E resources)) ok) fun _ e => e ∈ events) s before m →
      I m ∧ ∃ phase', m.calls[j]? = some ⟨requested, phase'⟩ ∧ M phase' ∧
        operations j before + phase'.budget n ≤ phase.budget n := by
    intro before m h
    induction h with
    | nil => exact ⟨hI, phase, hc, hM, by simp [operations]⟩
    | snoc _ hstep ih =>
      obtain ⟨⟨hexec, hok⟩, hmem⟩ := hstep
      obtain ⟨hI, phase', hc', hM', hcount⟩ := ih
      refine ⟨hinv _ _ _ hI hok hmem hexec, ?_⟩
      unfold operations at hcount ⊢
      rw [List.countP_append, List.countP_singleton]
      rcases call_of_execLock hexec hc' with
        ⟨hother, hkept⟩ | ⟨r, token, stores, next, rfl, hadv, rfl⟩ | ⟨rfl, -, rfl⟩
      · refine ⟨phase', hkept, hM', ?_⟩
        rw [hother]
        simpa using hcount
      · obtain ⟨hnext, hless⟩ := hop _ r token phase' stores next hI hok hM' hadv
        refine ⟨next, getElem?_setPhase hc' _ _, hnext, ?_⟩
        simp only [LockEvent.operates, beq_self_eq_true, if_true]
        omega
      · have hzero : budget n .stopped = 0 := rfl
        refine ⟨.stopped, getElem?_setPhase hc' _ _, hstop _ hok, ?_⟩
        simp only [LockEvent.operates, Bool.false_eq_true, if_false, hzero]
        omega
  exact hall hrun.restrict_mem

/-! ## Requests of calls -/

/-- Every call that has not failed is one of a request that passes the checks. -/
def PublishState.Admitted (C : Codec) (E : Externals) (resources : GuardedResourceRepository)
    (s : PublishState) : Prop :=
  ∀ c ∈ s.calls, (∃ e, c.phase = .finished (.error e)) ∨
    ∃ q now, c.requested = contentLock q now ∧
      (q.validated C E resources now).isOk

theorem admitted_exec (hs : s.Admitted C E resources)
    (h : s.execLock C E resources e = some t) : t.Admitted C E resources := by
  -- a call that moves has not failed
  have hmove : ∀ (i : ℕ) (c : CreateCall) stores phase, s.calls[i]? = some c →
      c.phase.ended = false → (s.setPhase i c stores phase).Admitted C E resources := by
    intro i c stores phase hc hended d hd
    rcases List.mem_or_eq_of_mem_set hd with hd | rfl
    · exact hs d hd
    · rcases hs c (List.mem_of_getElem? hc) with ⟨e, he⟩ | hq
      · rw [he] at hended
        cases hended
      · exact .inr hq
  cases e with
  | call request now =>
    cases h
    refine List.forall_mem_append.2 ⟨hs, List.forall_mem_singleton.2 ?_⟩
    unfold start
    cases hv : request.validated C E resources now with
    | error e => exact .inl ⟨e, rfl⟩
    | ok lock => exact .inr ⟨request, now, rfl, by rw [hv]; rfl⟩
  | advance i r token =>
    simp only [execLock, exec, Option.bind_eq_some_iff,
      Option.map_eq_some_iff] at h
    obtain ⟨c, hc, ⟨stores, phase⟩, hadv, rfl⟩ := h
    refine hmove i c stores phase hc ?_
    cases hp : c.phase <;> first | rfl | simp [advance, hp] at hadv
  | stop i =>
    simp only [execLock, exec, Option.bind_eq_some_iff] at h
    obtain ⟨c, hc, h⟩ := h
    split at h
    · cases h
    · rename_i hended
      cases h
      exact hmove i c _ _ hc (Bool.not_eq_true _ ▸ hended)
  | land k =>
    simp only [execLock, exec, Option.map_eq_some_iff] at h
    obtain ⟨w, -, rfl⟩ := h
    exact hs
  | delete key =>
    cases h
    exact hs
  | withdraw key =>
    simp only [execLock] at h
    split at h
    · cases h
      exact hs
    · cases h

theorem admitted_of_run {events : List LockEvent} {s : PublishState}
    (hrun : LockRun C E resources (.init [] fun _ _ => none) events s) :
    s.Admitted C E resources :=
  hrun.invariant (I := fun s => s.Admitted C E resources)
    (List.forall_mem_nil _) fun _ _ _ hs hstep => admitted_exec hs hstep.1

/-! ## A later call for the same request -/

/-- The call has read nothing but that its paths are published for the lock. -/
def CreatePhase.Rereads (lock : ContentLock) (lockId : LockId) : CreatePhase → Prop
  | readingOwnership seen => ∃ k ≤ (publicationGuardedPaths lock).length,
      seen = (ownedRows .published lock lockId).take k
  | recovering ownership id => ownership = ownedRows .published lock lockId ∧ id = lockId
  | rereadingOwnership ownership id seen => ownership = ownedRows .published lock lockId ∧
      id = lockId ∧ ∃ k ≤ (publicationGuardedPaths lock).length,
        seen = (ownedRows .published lock lockId).take k
  | readingPublished status id => status = .published ∧ id = lockId
  | recoveringAgain status existing id => status = .published ∧ existing = lock ∧ id = lockId
  | finished result => result = .ok ⟨lockId, lock⟩
  | _ => False

variable {stores stores' : PublishStores} {lock requested : ContentLock} {lockId : LockId}
  {phase phase' : CreatePhase} {token : Uuid}

theorem LandedLock.readPath_eq (h : LandedLock E stores .published lock requested lockId)
    {k : ℕ} (hk : k ≤ (publicationGuardedPaths lock).length)
    (again done : List (Option ContentLockOwnership) → CreatePhase) (phase : CreatePhase) :
    readPath ⟨requested, phase⟩ stores.tables
        ((ownedRows .published lock lockId).take k) again done =
      if k + 1 < (publicationGuardedPaths lock).length then
        again ((ownedRows .published lock lockId).take (k + 1))
      else done (ownedRows .published lock lockId) := by
  have hpaths : guardedPaths ⟨requested, phase⟩ = publicationGuardedPaths lock :=
    h.same.paths_eq.symm
  rw [readPath_take ⟨requested, phase⟩ stores.tables again done h.reads.symm (hpaths ▸ hk), hpaths]

theorem length_ownedRows_take {status : ContentLockOwnershipStatus} {k : ℕ}
    (hk : k ≤ (publicationGuardedPaths lock).length) :
    ((ownedRows status lock lockId).take k).length = k := by
  simp [ownedRows, hk]

theorem rereads_cases (n : ℕ) (h : Rereads lock lockId phase) :
    phase = .finished (.ok ⟨lockId, lock⟩) ∨ phase.ended = false ∧ 0 < phase.budget n := by
  cases phase with
  | finished result => exact .inl (congrArg _ h)
  | readingOwnership seen => exact .inr ⟨rfl, Nat.succ_pos _⟩
  | recovering ownership id => exact .inr ⟨rfl, Nat.succ_pos _⟩
  | rereadingOwnership ownership id seen => exact .inr ⟨rfl, Nat.succ_pos _⟩
  | readingPublished status id => exact .inr ⟨rfl, Nat.two_pos⟩
  | recoveringAgain status existing id => exact .inr ⟨rfl, Nat.one_pos⟩
  | _ => exact h.elim

/-- **An operation of a later call**: it writes nothing, and ends with the lock. -/
theorem rereads_advance (h : LandedLock E stores .published lock requested lockId)
    (hnone : stores.tables.intent? lock.creator lockId = none)
    (hphase : Rereads lock lockId phase)
    (hadv : advance E ⟨requested, phase⟩ stores .runs token = some (stores', phase')) :
    stores' = stores ∧ Rereads lock lockId phase' ∧
      phase'.budget (publicationGuardedPaths lock).length <
        phase.budget (publicationGuardedPaths lock).length := by
  have hrecover : ∀ {asked}, lock.SameRequest asked →
      stores.tables.recoverPublication E lock.creator lockId asked = .ok .none := by
    intro asked hasked
    rw [h.recover_eq h.kept hasked, hnone]
  cases phase with
  | readingOwnership seen =>
    obtain ⟨k, hk, rfl⟩ := hphase
    simp only [advance, OperationResult.read, answered,
      h.readPath_eq hk] at hadv
    cases hadv
    refine ⟨rfl, ?_⟩
    split
    · rename_i hlt
      refine ⟨⟨k + 1, by omega, rfl⟩, ?_⟩
      simp only [budget, length_ownedRows_take hk,
        length_ownedRows_take (Nat.le_of_lt hlt)]
      omega
    · rw [afterOwnership_ownedRows E _ h.nonempty]
      refine ⟨⟨rfl, rfl⟩, ?_⟩
      simp only [budget]
      omega
  | recovering ownership id =>
    obtain ⟨rfl, rfl⟩ := hphase
    simp only [advance, ← h.same.creator_eq, hrecover h.same, OperationResult.read,
      answered, afterRecovery] at hadv
    cases hadv
    refine ⟨rfl, ⟨rfl, rfl, 0, Nat.zero_le _, by simp⟩, ?_⟩
    simp [budget]
  | rereadingOwnership ownership id seen =>
    obtain ⟨rfl, rfl, k, hk, rfl⟩ := hphase
    simp only [advance, OperationResult.read, answered,
      h.readPath_eq hk] at hadv
    cases hadv
    refine ⟨rfl, ?_⟩
    split
    · rename_i hlt
      refine ⟨⟨rfl, rfl, k + 1, by omega, rfl⟩, ?_⟩
      simp only [budget, length_ownedRows_take hk,
        length_ownedRows_take (Nat.le_of_lt hlt)]
      omega
    · rw [afterReread_ownedRows E _ h.nonempty]
      refine ⟨⟨rfl, rfl⟩, ?_⟩
      simp only [budget]
      omega
  | readingPublished status id =>
    obtain ⟨rfl, rfl⟩ := hphase
    simp only [advance, ← h.same.creator_eq, h.published, OperationResult.read,
      answered, h.afterReadPublished_eq] at hadv
    cases hadv
    exact ⟨rfl, ⟨rfl, rfl, rfl⟩, Nat.lt_succ_self 1⟩
  | recoveringAgain status existing id =>
    obtain ⟨rfl, rfl, rfl⟩ := hphase
    simp only [advance, ← h.same.creator_eq,
      hrecover (ContentLock.SameRequest.refl existing)] at hadv
    cases hadv
    exact ⟨rfl, rfl, Nat.one_pos⟩
  | finished result => cases hadv
  | _ => exact hphase.elim

/-! ## A call for another request -/

def SeesOwner (requested : ContentLock) (path : String) (lockId : LockId)
    (seen : List (Option ContentLockOwnership)) : Prop :=
  ∀ (k : ℕ) (row : Option ContentLockOwnership),
    (publicationGuardedPaths requested)[k]? = some path → seen[k]? = some row →
    ∃ o, row = some o ∧ o.lockId = lockId

/-- The call has found that the path belongs to the lock, or has failed. -/
def CreatePhase.Refuses (requested : ContentLock) (path : String) (lockId : LockId) :
    CreatePhase → Prop
  | readingOwnership seen => SeesOwner requested path lockId seen
  | recovering _ id | readingPublished _ id => id = lockId
  | rereadingOwnership _ id seen => id = lockId ∧ SeesOwner requested path lockId seen
  | finished (.error _) | stopped => True
  | _ => False

variable {P : ContentLock → Prop} {path : String} {r : OperationResult}

/-- The call refuses, with a budget below a bound. -/
def CreatePhase.Declines (requested : ContentLock) (path : String) (lockId : LockId) (b : ℕ)
    (phase : CreatePhase) : Prop :=
  Refuses requested path lockId phase ∧
    phase.budget (publicationGuardedPaths requested).length < b

theorem declines_error {b : ℕ} (hb : 0 < b) (e : ApplicationError) :
    Declines requested path lockId b (.finished (.error e)) :=
  ⟨trivial, hb⟩

theorem SeesOwner.read {c : CreateCall} {seen l : List (Option ContentLockOwnership)}
    (hinv : LandedInvariant E P s) (hrows : s.stores.tables.HasRows lock lockId)
    (hpath : path ∈ publicationGuardedPaths lock) (hcreator : c.requested.creator = lock.creator)
    (h : SeesOwner c.requested path lockId seen) (hl : c.Reads s.stores.tables seen l) :
    SeesOwner c.requested path lockId l := by
  obtain ⟨next, hnext, rfl⟩ := hl
  intro k row hk hrow
  rw [List.getElem?_append] at hrow
  split at hrow
  · exact h k row hk hrow
  · obtain ⟨hlt, hget⟩ := List.getElem?_eq_some_iff.1 hrow
    have hlast : k = seen.length := by
      simp only [List.length_singleton] at hlt
      omega
    subst hlast
    obtain rfl : next = path := Option.some.inj (hnext.symm.trans hk)
    obtain ⟨o, ho, hoc, rfl, hoid⟩ := hrows next hpath
    simp only [Nat.sub_self, List.getElem_cons_zero] at hget
    have howner := Ownership.getPathOwnership_eq_some hinv.tables.uniform.keys ho
    rw [hoc, ← hcreator, hget] at howner
    exact ⟨o, howner, hoid⟩

theorem SeesOwner.row {seen : List (Option ContentLockOwnership)}
    (h : SeesOwner requested path lockId seen)
    (hpath : path ∈ publicationGuardedPaths requested)
    (hlong : (publicationGuardedPaths requested).length ≤ seen.length) :
    ∃ o, some o ∈ seen ∧ o.lockId = lockId ∧
      (path, some o) ∈ (publicationGuardedPaths requested).zip seen := by
  obtain ⟨k, hk, hget⟩ := List.mem_iff_getElem.1 hpath
  have hlt : k < seen.length := lt_of_lt_of_le hk hlong
  obtain ⟨o, ho, hid⟩ := h k seen[k] (List.getElem?_eq_some_iff.2 ⟨hk, hget⟩)
    (List.getElem?_eq_getElem hlt)
  refine ⟨o, ho ▸ List.getElem_mem hlt, hid, ?_⟩
  rw [← hget, ← ho]
  refine List.mem_iff_getElem.2 ⟨k, ?_, List.getElem_zip⟩
  rw [List.length_zip]
  exact lt_min hk hlt

theorem refuses_cases (n : ℕ) (h : Refuses requested path lockId phase) :
    (∃ e, phase = .finished (.error e)) ∨ phase = .stopped ∨
      phase.ended = false ∧ 0 < phase.budget n := by
  cases phase with
  | finished result =>
    cases result with
    | ok created => exact h.elim
    | error e => exact .inl ⟨e, rfl⟩
  | stopped => exact .inr (.inl rfl)
  | readingOwnership seen => exact .inr (.inr ⟨rfl, Nat.succ_pos _⟩)
  | recovering ownership id => exact .inr (.inr ⟨rfl, Nat.succ_pos _⟩)
  | rereadingOwnership ownership id seen => exact .inr (.inr ⟨rfl, Nat.succ_pos _⟩)
  | readingPublished status id => exact .inr (.inr ⟨rfl, Nat.two_pos⟩)
  | _ => exact h.elim

/-- **An operation of a call for another request**: it writes nothing, and ends
    with an error. -/
theorem refuses_advance (hfree : FaithfulLocks E P) (hinv : LandedInvariant E P s)
    (hseen : s.Seen E P lock lockId) (hother : ¬ lock.SameRequest requested)
    (hcreator : requested.creator = lock.creator)
    (hpath : path ∈ publicationGuardedPaths lock)
    (hshared : path ∈ publicationGuardedPaths requested)
    (hphase : Refuses requested path lockId phase)
    (hadv : advance E ⟨requested, phase⟩ s.stores r token = some (stores, phase')) :
    stores = s.stores ∧ Declines requested path lockId
      (phase.budget (publicationGuardedPaths requested).length) phase' := by
  -- a lock of the run with the id is the lock, and was not asked for
  have hsame : ∀ l, P l → l.lockId E = .ok lockId → ¬ l.SameRequest requested := by
    intro l hP hid
    rw [hfree.apart l lock lockId hP hseen.ofRun hid hseen.id]
    exact hother
  cases phase with
  | readingOwnership seen =>
    have hsees : SeesOwner requested path lockId seen := hphase
    simp only [advance] at hadv
    cases hadv
    refine ⟨rfl, ?_⟩
    refine answered_cases (declines_error (Nat.succ_pos _)) fun t ht => ?_
    obtain rfl := Except.ok.inj (OperationResult.read_eq_ok ht)
    refine readPath_cases (fun l hl => ?_) fun l hl hlong => ?_
    · refine ⟨hsees.read hinv hseen.guarded.1 hpath hcreator hl, ?_⟩
      obtain ⟨next, hnext, rfl⟩ := hl
      obtain ⟨hlt, -⟩ := List.getElem?_eq_some_iff.1 hnext
      change seen.length < (publicationGuardedPaths requested).length at hlt
      simp only [budget, List.length_append, List.length_singleton]
      omega
    · have hall : SeesOwner requested path lockId l := by
        rcases hl with rfl | hl
        · exact hsees
        · exact hsees.read hinv hseen.guarded.1 hpath hcreator hl
      obtain ⟨o, ho, hid, hzip⟩ := hall.row hshared hlong
      refine afterOwnership_cases (declines_error (Nat.succ_pos _)) (fun hnone => ?_)
        fun id howner => ⟨?_, ?_⟩
      · cases hnone _ ho
      · exact (eq_of_beq (howner _ hzip)).symm.trans hid
      · simp only [budget]
        omega
  | recovering ownership id =>
    obtain rfl : id = lockId := hphase
    simp only [advance] at hadv
    cases hadv
    refine ⟨rfl, ?_⟩
    refine answered_cases (declines_error (Nat.succ_pos _)) fun a ha => ?_
    refine afterRecovery_cases (declines_error (Nat.succ_pos _)) ⟨⟨rfl, ?_⟩, ?_⟩ ?_
    · intro k row _ hrow
      cases hrow
    · simp [budget]
    · rintro k original rfl
      have hrecovered := OperationResult.read_eq_ok ha
      obtain ⟨hP, hid⟩ := hinv.tables.recovered hrecovered
      obtain ⟨i, -, rfl, hmatches⟩ := recoverPublication_writeCompleted hrecovered
      exact absurd (sameRequest_of_matches hmatches) (hsame _ hP hid)
  | rereadingOwnership ownership id seen =>
    obtain ⟨rfl, hsees⟩ := hphase
    simp only [advance] at hadv
    cases hadv
    refine ⟨rfl, ?_⟩
    refine answered_cases (declines_error (Nat.succ_pos _)) fun t ht => ?_
    obtain rfl := Except.ok.inj (OperationResult.read_eq_ok ht)
    refine readPath_cases (fun l hl => ?_) fun l hl hlong => ?_
    · refine ⟨⟨rfl, hsees.read hinv hseen.guarded.1 hpath hcreator hl⟩, ?_⟩
      obtain ⟨next, hnext, rfl⟩ := hl
      obtain ⟨hlt, -⟩ := List.getElem?_eq_some_iff.1 hnext
      change seen.length < (publicationGuardedPaths requested).length at hlt
      simp only [budget, List.length_append, List.length_singleton]
      omega
    · have hall : SeesOwner requested path id l := by
        rcases hl with rfl | hl
        · exact hsees
        · exact hsees.read hinv hseen.guarded.1 hpath hcreator hl
      obtain ⟨o, ho, -⟩ := hall.row hshared hlong
      refine afterReread_cases (declines_error (Nat.succ_pos _)) (fun hnone => ?_)
        ⟨rfl, ?_⟩
      · cases hnone _ ho
      · simp only [budget]
        omega
  | readingPublished status id =>
    obtain rfl : id = lockId := hphase
    simp only [advance] at hadv
    cases hadv
    refine ⟨rfl, ?_⟩
    refine answered_cases (declines_error (Nat.succ_pos _)) fun a ha => ?_
    refine afterReadPublished_cases (declines_error (Nat.succ_pos _))
      fun existing hexisting hid hsame' => ?_
    have hread := Except.ok.inj (OperationResult.read_eq_ok ha)
    exact absurd hsame' (hsame existing (hinv.published _ _ _ (hread.trans hexisting)).1 hid)
  | finished result => cases hadv
  | stopped => cases hadv
  | _ => exact hphase.elim

/-! ## Runs -/

def PublishState.Returned (s : PublishState) (q : CreateContentLockRequest) (lockId : LockId)
    (lock : ContentLock) : Prop :=
  ∃ (i : ℕ) (now : Timestamp),
    s.calls[i]? = some ⟨q.contentLock now, .finished (.ok ⟨lockId, lock⟩)⟩

/-- The event commits the mark of a call for a request that its lock is written. -/
def PublishState.Marks (s : PublishState) (e : LockEvent) (q : CreateContentLockRequest)
    (lockId : LockId) (lock : ContentLock) : Prop :=
  ∃ (i : ℕ) (r : OperationResult) (next : Uuid) (now : Timestamp) (token : Uuid) (attempts : ℕ),
    e = .advance i r next ∧ (∀ error, r ≠ .fails error) ∧
    s.calls[i]? = some ⟨q.contentLock now, .markingWritten lock lockId token attempts⟩ ∧
    s.stores.tables.intents.any (holdsToken q.creator lockId token)

def MarkedWritten (C : Codec) (E : Externals) (resources : GuardedResourceRepository)
    (events : List LockEvent) (s : PublishState) (q : CreateContentLockRequest) (lockId : LockId)
    (lock : ContentLock) : Prop :=
  Passes (restrict (ofExec (execLock C E resources))
      fun s e => freshToken s e) (.init [] fun _ _ => none) events s
    fun m e => m.Marks e q lockId lock

/-- There is no deletion job, receipt or intent for the lock. -/
def PublicationTables.clear (t : PublicationTables) (creator : CreatorPubky) (lockId : LockId) :
    Bool :=
  !t.deletionExists creator lockId && (t.intent? creator lockId).isNone

/-- The operations of the call run, at times when the lock has no deletion and no
    intent. -/
def attended (j : ℕ) (creator : CreatorPubky) (lockId : LockId) (s : PublishState) :
    LockEvent → Bool
  | .advance i .runs _ => i != j || s.stores.tables.clear creator lockId
  | .advance i _ _ | .stop i => i != j
  | _ => true

def PublishState.called (C : Codec) (E : Externals) (resources : GuardedResourceRepository)
    (s : PublishState) (q : CreateContentLockRequest) (now : Timestamp) : PublishState :=
  { s with calls := s.calls ++ [start C E q resources now] }

/-- A later call for the request, which no operation fails: it ends with the lock
    after a bounded number of operations, and changes nothing. -/
def PublishState.ReturnsAgain (C : Codec) (E : Externals) (resources : GuardedResourceRepository)
    (events : List LockEvent) (s : PublishState) (q : CreateContentLockRequest) (lockId : LockId)
    (lock : ContentLock) : Prop :=
  ∀ (now : Timestamp) (after : List LockEvent) (t : PublishState),
    FaithfulLocks E (LocksOf (events ++ .call q now :: after)) →
    Run (restrict (ofExec (execLock C E resources))
        fun s' e => freshToken s' e ∧ attended s.calls.length q.creator lockId s' e)
      (s.called C E resources q now) after t →
    (∃ phase, t.calls[s.calls.length]? = some ⟨q.contentLock now, phase⟩ ∧
      (phase = .finished (.ok ⟨lockId, lock⟩) ∨ phase.ended = false ∧
        operations s.calls.length after <
          2 * (publicationGuardedPaths (q.contentLock now)).length + 5)) ∧
    ∀ token t', t.stores.tables.clear q.creator lockId →
      t.execLock C E resources (.advance s.calls.length .runs token) = some t' →
      t'.stores = t.stores

/-- A later call for the request that runs alone: it ends with the lock, its intent
    removed and its paths published; or, if there is an intent whose write is not
    marked, with an error and nothing changed. -/
def PublishState.Resumes (C : Codec) (E : Externals) (resources : GuardedResourceRepository)
    (s : PublishState) (q : CreateContentLockRequest) (lockId : LockId) (lock : ContentLock) :
    Prop :=
  ∀ (now : Timestamp) (token : Uuid), s.unused token →
    ∃ n stores result,
      runAlone C E s.calls.length token n (s.called C E resources q now) =
        ⟨stores, s.calls ++ [⟨q.contentLock now, .finished result⟩]⟩ ∧
      (if (s.stores.tables.intent? q.creator lockId).all (·.written) then
        result = .ok ⟨lockId, lock⟩ ∧ stores.tables.intent? q.creator lockId = none ∧
          stores.tables.HasPublished (q.contentLock now) lockId
      else result = .error .contentLockPublicationInProgress ∧ stores = s.stores)

/-- A later call for another request of the creator that shares a path: whatever
    its operations do, it fails after a bounded number of them unless it stops, and
    changes nothing. -/
def PublishState.RefusesOthers (C : Codec) (E : Externals) (resources : GuardedResourceRepository)
    (events : List LockEvent) (s : PublishState) (q : CreateContentLockRequest) : Prop :=
  ∀ (other : CreateContentLockRequest) (now : Timestamp) (path : String) (after : List LockEvent)
    (t : PublishState), other ≠ q → other.creator = q.creator →
    path ∈ publicationGuardedPaths (q.contentLock now) →
    path ∈ publicationGuardedPaths (other.contentLock now) →
    FaithfulLocks E (LocksOf (events ++ .call other now :: after)) →
    LockRun C E resources (s.called C E resources other now) after t →
    (∃ phase, t.calls[s.calls.length]? = some ⟨other.contentLock now, phase⟩ ∧
      ((∃ e, phase = .finished (.error e)) ∨ phase = .stopped ∨ phase.ended = false ∧
        operations s.calls.length after <
          2 * (publicationGuardedPaths (other.contentLock now)).length + 5)) ∧
    ∀ r token t', t.execLock C E resources (.advance s.calls.length r token) = some t' →
      t'.stores = t.stores

variable {events : List LockEvent}

structure PublishState.LandedFor (C : Codec) (E : Externals) (P : ContentLock → Prop)
    (resources : GuardedResourceRepository) (s : PublishState) (q : CreateContentLockRequest)
    (lockId : LockId) (lock : ContentLock) : Prop where
  seen : s.Seen E P lock lockId
  same : ∀ now, lock.SameRequest (q.contentLock now)
  valid : ∀ now, (q.validated C E resources now).isOk

theorem request_of_call {i : ℕ} {now : Timestamp} {phase : CreatePhase}
    (hinv : LandedInvariant E P s) (hadmitted : s.Admitted C E resources)
    (hc : s.calls[i]? = some ⟨q.contentLock now, phase⟩)
    (hlock : phase.lock? = some (lock, lockId)) :
    (∀ now, lock.SameRequest (q.contentLock now)) ∧
      ∀ now, (q.validated C E resources now).isOk := by
  have hmem := List.mem_of_getElem? hc
  refine ⟨fun now' => hinv.same _ hmem lock lockId hlock, fun now' => ?_⟩
  rcases hadmitted _ hmem with ⟨e, he⟩ | ⟨q', now'', hq, hvalid⟩
  · obtain rfl : phase = .finished (.error e) := he
    cases hlock
  · obtain rfl : q = q' := eq_of_sameRequest (by
      rw [show q.contentLock now = q'.contentLock now'' from hq]
      exact ContentLock.SameRequest.refl _)
    exact validated_at now' hvalid

theorem landedFor_returned (hinv : LandedInvariant E P s) (hadmitted : s.Admitted C E resources)
    (h : s.Returned q lockId lock) :
    s.LandedFor C E P resources q lockId lock ∧ s.stores.tables.HasPublished lock lockId := by
  obtain ⟨i, now, hc⟩ := h
  obtain ⟨hsame, hvalid⟩ := request_of_call hinv hadmitted hc rfl
  obtain ⟨hseen, hpub⟩ := hinv.facts _ (List.mem_of_getElem? hc)
  exact ⟨⟨hseen, hsame, hvalid⟩, hpub⟩

theorem landedFor_marked (hfree : FaithfulLocks E P) (hasks : ∀ l, LocksOf events l → P l)
    (h : MarkedWritten C E resources events s q lockId lock) :
    s.LandedFor C E P resources q lockId lock := by
  obtain ⟨before, e, after, m, rfl, hbefore, hmarks, hafter⟩ := h
  obtain ⟨i, r, next, now, token, attempts, -, -, hc, -⟩ := hmarks
  have hinv : LandedInvariant E P m := (landedStep_of_run hfree
    (fun l ⟨q, now, hmem, hl⟩ => hasks l ⟨q, now, List.mem_append_left _ hmem, hl⟩)
    (landedInvariant_init E P) hbefore).inv
  have hkept := (landedStep_of_run hfree
    (fun l ⟨q, now, hmem, hl⟩ => hasks l ⟨q, now, List.mem_append_right _ hmem, hl⟩) hinv
    hafter).evolves
  obtain ⟨hsame, hvalid⟩ := request_of_call hinv (admitted_of_run hbefore) hc rfl
  have hseen : m.Seen E P lock lockId := hinv.facts _ (List.mem_of_getElem? hc)
  exact ⟨hseen.evolve hkept, hsame, hvalid⟩

theorem LandedInvariant.landedLock (hfree : FaithfulLocks E P) (hinv : LandedInvariant E P s)
    (hseen : s.Seen E P lock lockId) (hsame : lock.SameRequest requested)
    (hne : publicationGuardedPaths lock ≠ []) (hnodup : (publicationGuardedPaths lock).Nodup)
    (hkept : s.stores.tables.deletionExists lock.creator lockId = false)
    {o : ContentLockOwnership} (ho : o ∈ s.stores.tables.ownership)
    (hcreator : o.creator = lock.creator) (hoid : o.lockId = lockId) :
    LandedLock E s.stores o.status lock requested lockId where
  same := hsame
  id := hseen.id
  stored := hfree.stored lock hseen.ofRun
  nonempty := hne
  nodup := hnodup
  rows := by
    intro p hp
    have hrow := hinv.tables.uniform.row_of_mem hfree (fun _ h => h) hseen.ofRun ho
      (hoid ▸ hseen.id) hp
    have hget := Ownership.getPathOwnership_eq_some hinv.tables.uniform.keys hrow
    rw [← hcreator, ← hoid]
    exact hget
  original := by
    intro i hi
    have hfound := List.find?_some hi
    simp only [Bool.and_eq_true, beq_iff_eq] at hfound
    obtain ⟨hP, -, hid⟩ := hinv.tables.intents i (List.mem_of_find?_eq_some hi)
    rw [hfound.2] at hid
    exact hfree.apart _ lock lockId hP hseen.ofRun hid hseen.id
  published := hseen.published hkept
  kept := hkept
  keys := hinv.tables.keys

theorem PublishState.LandedFor.paths (h : s.LandedFor C E P resources q lockId lock) :
    publicationGuardedPaths lock ≠ [] ∧ (publicationGuardedPaths lock).Nodup := by
  rw [(h.same 0).paths_eq]
  exact paths_of_validated (h.valid 0)

theorem advance_of_execLock {j : ℕ} {c : CreateCall} {r : OperationResult} {token : Uuid}
    {t : PublishState} (hc : s.calls[j]? = some c)
    (h : s.execLock C E resources (.advance j r token) = some t) :
    ∃ stores phase, c.advance E s.stores r token = some (stores, phase) ∧ t.stores = stores := by
  simp only [execLock, exec, hc, Option.bind_some,
    Option.map_eq_some_iff] at h
  obtain ⟨⟨stores, phase⟩, hadv, rfl⟩ := h
  exact ⟨stores, phase, hadv, rfl⟩

theorem LocksOf.mono {events events' : List LockEvent} (hsub : events ⊆ events') {l : ContentLock}
    (h : LocksOf events l) : LocksOf events' l := by
  obtain ⟨q, now, hmem, hl⟩ := h
  exact ⟨q, now, hsub hmem, hl⟩

theorem landedStep_called {now : Timestamp} {after : List LockEvent}
    (hfree : FaithfulLocks E (LocksOf (events ++ .call q now :: after)))
    (hrun : LockRun C E resources (.init [] fun _ _ => none) events s) :
    LandedInvariant E (LocksOf (events ++ .call q now :: after)) s ∧
      LandedStep E (LocksOf (events ++ .call q now :: after)) s (s.called C E resources q now) := by
  have hinv := (landedStep_of_run hfree (fun _ hl => hl.mono (List.subset_append_left _ _))
    (landedInvariant_init E _) hrun).inv
  refine ⟨hinv, landedStep_exec (e := .call q now) hfree (fun _ hl => hl.mono ?_) rfl hinv rfl⟩
  simp

theorem landedStep_after {now : Timestamp} {after : List LockEvent} {e : LockEvent}
    {t t' : PublishState} (hfree : FaithfulLocks E (LocksOf (events ++ .call q now :: after)))
    (hmem : e ∈ after) (hfresh : freshToken t e)
    (hinv : LandedInvariant E (LocksOf (events ++ .call q now :: after)) t)
    (h : t.execLock C E resources e = some t') :
    LandedStep E (LocksOf (events ++ .call q now :: after)) t t' := by
  refine landedStep_exec hfree (fun _ hl => hl.mono ?_) hfresh hinv h
  simp [hmem]

theorem PublishState.getElem?_called (s : PublishState) (q : CreateContentLockRequest)
    (now : Timestamp) : (s.called C E resources q now).calls[s.calls.length]? =
      some (start C E q resources now) := by
  simp [called]

section
variable (hrun : LockRun C E resources (.init [] fun _ _ => none) events s)
include hrun

/-- **Later calls return the lock** that the request was answered with. -/
theorem returnsAgain_of_returned
    (hret : s.Returned q lockId lock) : s.ReturnsAgain C E resources events q lockId lock := by
  intro now after t hfree hrun'
  obtain ⟨hinv, hcalled⟩ := landedStep_called hfree hrun
  obtain ⟨hfor, hpub⟩ := landedFor_returned hinv (admitted_of_run hrun) hret
  obtain ⟨hne, hnodup⟩ := hfor.paths
  have hlength : (publicationGuardedPaths (q.contentLock now)).length =
      (publicationGuardedPaths lock).length := by rw [(hfor.same now).paths_eq]
  have hcreator : lock.creator = q.creator := (hfor.same now).creator_eq
  have hstart : start C E q resources now =
      ⟨q.contentLock now, .readingOwnership []⟩ := by
    obtain ⟨l, hl⟩ := isOk_iff.1 (hfor.valid now)
    simp only [start, hl]
  -- a state in which the call makes an operation
  have hlanded : ∀ m : PublishState,
      LandedInvariant E (LocksOf (events ++ .call q now :: after)) m →
      m.Seen E (LocksOf (events ++ .call q now :: after)) lock lockId →
      m.stores.tables.HasPublished lock lockId → m.stores.tables.clear q.creator lockId →
      LandedLock E m.stores .published lock (q.contentLock now) lockId ∧
        m.stores.tables.intent? lock.creator lockId = none := by
    intro m hm hseen hp hclear
    simp only [clear, Bool.and_eq_true, Bool.not_eq_true', ← hcreator,
      Option.isNone_iff_eq_none] at hclear
    obtain ⟨p, l, hpl⟩ := List.exists_cons_of_ne_nil hne
    exact ⟨hm.landedLock hfree hseen (hfor.same now) hne hnodup hclear.1
      (hp p (hpl ▸ List.mem_cons_self)) rfl rfl, hclear.2⟩
  obtain ⟨⟨hm, hseen, hp⟩, phase, hc, hphase, hcount⟩ := progress_of_run
    (I := fun m => LandedInvariant E (LocksOf (events ++ .call q now :: after)) m ∧
      m.Seen E (LocksOf (events ++ .call q now :: after)) lock lockId ∧
      m.stores.tables.HasPublished lock lockId)
    (M := Rereads lock lockId) (n := (publicationGuardedPaths lock).length)
    hrun' ((s.getElem?_called q now).trans (congrArg some hstart)) ⟨0, Nat.zero_le _, by simp⟩
    ⟨hcalled.inv, hfor.seen.evolve hcalled.evolves, hpub.evolve hcalled.evolves⟩
    (fun m e m' hI hok hmem hexec => by
      obtain ⟨hm, hseen, hp⟩ := hI
      have hstep := landedStep_after hfree hmem hok.1 hm hexec
      exact ⟨hstep.inv, hseen.evolve hstep.evolves, hp.evolve hstep.evolves⟩)
    (fun m r token phase stores phase' hI hok hphase hadv => by
      obtain ⟨hm, hseen, hp⟩ := hI
      cases r with
      | runs =>
        obtain ⟨hlock, hnone⟩ := hlanded m hm hseen hp (by simpa [attended] using hok.2)
        exact (rereads_advance hlock hnone hphase hadv).2
      | fails e => simp [attended] at hok
      | lost e => simp [attended] at hok)
    (fun m hok => by simp [attended] at hok)
  refine ⟨⟨phase, hc, ?_⟩, fun token t' hclear hexec => ?_⟩
  · rw [hlength]
    rw [budget_start] at hcount
    rcases rereads_cases (publicationGuardedPaths lock).length hphase with hdone | ⟨hgoes, hpos⟩
    · exact .inl hdone
    · exact .inr ⟨hgoes, by omega⟩
  · obtain ⟨hlock, hnone⟩ := hlanded t hm hseen hp hclear
    obtain ⟨stores, next, hadv, hstores⟩ := advance_of_execLock hc hexec
    rw [hstores]
    exact (rereads_advance hlock hnone hphase hadv).1

/-- **Calls for other requests are refused** once the lock has landed. -/
theorem refusesOthers_of_landed
    (hlanded : ∀ P, FaithfulLocks E P → (∀ l, LocksOf events l → P l) → LandedInvariant E P s →
      s.LandedFor C E P resources q lockId lock) :
    s.RefusesOthers C E resources events q := by
  intro other now path after t hother hcreator hpath hshared hfree hrun'
  obtain ⟨hinv, hcalled⟩ := landedStep_called hfree hrun
  have hfor := hlanded _ hfree (fun _ hl => hl.mono (List.subset_append_left _ _)) hinv
  have hne : ¬ lock.SameRequest (other.contentLock now) := by
    intro hsame
    obtain ⟨created, rfl⟩ : ∃ created, lock = q.contentLock created := ⟨_, hfor.same now⟩
    exact hother (eq_of_sameRequest hsame).symm
  have hlockPath : path ∈ publicationGuardedPaths lock := by
    rw [(hfor.same now).paths_eq]
    exact hpath
  have hlockCreator : (other.contentLock now).creator = lock.creator :=
    hcreator.trans (hfor.same now).creator_eq.symm
  have hstart : Refuses (other.contentLock now) path lockId
        (start C E other resources now).phase ∧
      (start C E other resources now).phase.budget
        (publicationGuardedPaths (other.contentLock now)).length ≤
        2 * (publicationGuardedPaths (other.contentLock now)).length + 5 := by
    unfold start
    cases other.validated C E resources now with
    | ok l =>
      refine ⟨fun k row _ hrow => ?_, (budget_start _).le⟩
      cases hrow
    | error e => exact ⟨trivial, Nat.zero_le _⟩
  obtain ⟨⟨hm, hseen⟩, phase, hc, hphase, hcount⟩ := progress_of_run
    (I := fun m => LandedInvariant E (LocksOf (events ++ .call other now :: after)) m ∧
      m.Seen E (LocksOf (events ++ .call other now :: after)) lock lockId)
    (M := Refuses (other.contentLock now) path lockId)
    (n := (publicationGuardedPaths (other.contentLock now)).length)
    hrun' (s.getElem?_called other now) hstart.1
    ⟨hcalled.inv, hfor.seen.evolve hcalled.evolves⟩
    (fun m e m' ⟨hm, hseen⟩ hok hmem hexec => by
      have hstep := landedStep_after hfree hmem hok hm hexec
      exact ⟨hstep.inv, hseen.evolve hstep.evolves⟩)
    (fun m r token phase stores phase' ⟨hm, hseen⟩ hok hphase hadv =>
      (refuses_advance hfree hm hseen hne hlockCreator hlockPath hshared hphase hadv).2)
    (fun m hok => trivial)
  refine ⟨⟨phase, hc, ?_⟩, fun r token t' hexec => ?_⟩
  · have hbound := hcount.trans hstart.2
    rcases refuses_cases (publicationGuardedPaths (other.contentLock now)).length hphase with
      herror | hstopped | ⟨hgoes, hpos⟩
    · exact .inl herror
    · exact .inr (.inl hstopped)
    · exact .inr (.inr ⟨hgoes, by omega⟩)
  · obtain ⟨stores, next, hadv, hstores⟩ := advance_of_execLock hc hexec
    rw [hstores]
    exact (refuses_advance hfree hm hseen hne hlockCreator hlockPath hshared hphase hadv).1

end

/-- **Later calls resume the publication** of a landed lock. -/
theorem resumes_of_landed (hfree : FaithfulLocks E P) (hinv : LandedInvariant E P s)
    (hfor : s.LandedFor C E P resources q lockId lock)
    (hkept : s.stores.tables.deletionExists q.creator lockId = false) :
    s.Resumes C E resources q lockId lock := by
  intro now token hunused
  obtain ⟨hne, hnodup⟩ := hfor.paths
  have hcreator : lock.creator = q.creator := (hfor.same now).creator_eq
  rw [← hcreator] at hkept ⊢
  obtain ⟨p, l, hpl⟩ := List.exists_cons_of_ne_nil hne
  obtain ⟨o, ho, hoc, -, hoid⟩ := hfor.seen.guarded.1 p (hpl ▸ List.mem_cons_self)
  have hlock := hinv.landedLock hfree hfor.seen (hfor.same now) hne hnodup hkept ho hoc hoid
  have hstart : start C E q resources now =
      ⟨q.contentLock now, .readingOwnership []⟩ := by
    obtain ⟨l, hl⟩ := isOk_iff.1 (hfor.valid now)
    simp only [start, hl]
  unfold called
  rw [hstart]
  split
  · rename_i hall
    have hfresh : ∀ i ∈ s.stores.tables.intents, i.publicationToken ≠ token := by
      rw [unused, Bool.and_eq_true, List.all_eq_true, List.all_eq_true] at hunused
      intro i hi
      simpa using hunused.2 i hi
    obtain ⟨stores, hsteps, hnone, hpub⟩ := hlock.resumes hfresh fun i hi => by
      rw [hi] at hall
      exact hall
    obtain ⟨n, hn⟩ := runAlone_of_steps C s.calls hsteps
    refine ⟨n, stores, _, hn, rfl, hnone, ?_⟩
    unfold HasPublished at hpub ⊢
    rw [(hfor.same now).creator_eq, (hfor.same now).paths_eq] at hpub
    exact hpub
  · rename_i hsome
    cases hi : s.stores.tables.intent? lock.creator lockId with
    | none => simp [hi] at hsome
    | some i =>
      rw [hi, Option.all_some, Bool.not_eq_true] at hsome
      obtain ⟨n, hn⟩ := runAlone_of_steps C s.calls (hlock.pending hlock.kept hi hsome)
      exact ⟨n, _, _, hn, rfl, rfl⟩

/-- **Publication is idempotent.**  Along every run whose locks are faithful: once a
    request was answered with a lock, later calls for it return that lock and write
    nothing, as long as it has no deletion and no intent; once a write of a lock for
    a request was marked, a later call that runs alone completes the publication of
    that lock, unless it has a deletion or an unmarked write; and in both cases a
    call for another request that shares a path fails and writes nothing. -/
theorem republication (C : Codec) (E : Externals) (resources : GuardedResourceRepository)
    (events : List LockEvent) (s : PublishState) (q : CreateContentLockRequest) (lockId : LockId)
    (lock : ContentLock) (hrun : LockRun C E resources (.init [] fun _ _ => none) events s) :
    (s.Returned q lockId lock → s.ReturnsAgain C E resources events q lockId lock) ∧
    (MarkedWritten C E resources events s q lockId lock → FaithfulLocks E (LocksOf events) →
      s.stores.tables.deletionExists q.creator lockId = false →
      s.Resumes C E resources q lockId lock) ∧
    (s.Returned q lockId lock ∨ MarkedWritten C E resources events s q lockId lock →
      s.RefusesOthers C E resources events q) := by
  refine ⟨fun hret => returnsAgain_of_returned hrun hret, fun hmarked hfree hkept => ?_, ?_⟩
  · have hinv := (landedStep_of_run hfree (fun _ hl => hl) (landedInvariant_init E _) hrun).inv
    exact resumes_of_landed hfree hinv (landedFor_marked hfree (fun _ hl => hl) hmarked) hkept
  · rintro (hret | hmarked)
    · exact refusesOthers_of_landed hrun fun P _ _ hinv =>
        (landedFor_returned hinv (admitted_of_run hrun) hret).1
    · exact refusesOthers_of_landed hrun fun P hfree hasks _ =>
        landedFor_marked hfree hasks hmarked

/-! ## Runs of one request -/

def writes : List LockEvent :=
  [.call staticRequest 0, .advance 0 .runs ⟨1⟩, .advance 0 .runs ⟨1⟩, .advance 0 .runs ⟨1⟩,
    .advance 0 .runs ⟨1⟩]

def marksThen (rest : List LockEvent) : List LockEvent :=
  writes ++ .advance 0 .runs ⟨1⟩ :: rest

def sameId : LockId := LockId.fromHash (.replicate 7)

theorem markedWritten_of_any {E : Externals} (rest : List LockEvent) (p : PublishState → Bool)
    (h : (execList
      (guarded (execLock .lenient E describedResources) freshToken)
      (.init [] fun _ _ => none) writes).any fun m =>
        decide (m.calls[0]? = some ⟨staticRequest.contentLock 0,
          .markingWritten (staticRequest.contentLock 0) sameId ⟨1⟩ 0⟩) &&
        m.stores.tables.intents.any
          (holdsToken staticRequest.creator sameId ⟨1⟩) &&
        (execList
          (guarded (execLock .lenient E describedResources) freshToken) m
          (.advance 0 .runs ⟨1⟩ :: rest)).any p) :
    ∃ s, LockRun .lenient E describedResources (.init [] fun _ _ => none) (marksThen rest) s ∧
      MarkedWritten .lenient E describedResources (marksThen rest) s staticRequest sameId
        (staticRequest.contentLock 0) ∧ p s := by
  obtain ⟨m, hm, hrest⟩ := (Option.any_eq_true _ _).1 h
  rw [Bool.and_eq_true, Bool.and_eq_true, decide_eq_true_eq] at hrest
  obtain ⟨⟨hcall, hheld⟩, hrest⟩ := hrest
  obtain ⟨s, hs, hp⟩ := (Option.any_eq_true _ _).1 hrest
  have hbefore := run_of_guarded _ _ hm
  have hafter := run_of_guarded _ _ hs
  exact ⟨s, hbefore.append hafter, ⟨_, _, _, m, rfl, hbefore,
    ⟨0, .runs, ⟨1⟩, 0, ⟨1⟩, 0, rfl, nofun, hcall, hheld⟩, hafter⟩, hp⟩

theorem faithfulLocks_of_one {hash : LockHash} {events : List LockEvent}
    (h : ∀ e ∈ events, match e with
      | .call request now => request = staticRequest ∧ now = 0
      | _ => True) : FaithfulLocks (.constant hash) (LocksOf events) := by
  have hone : ∀ l, LocksOf events l → l = staticRequest.contentLock 0 := by
    rintro l ⟨request, now, hmem, rfl⟩
    obtain ⟨rfl, rfl⟩ := h _ hmem
    rfl
  refine ⟨fun a b _ ha hb _ _ => ?_, fun l hl => ?_⟩
  · rw [hone a ha, hone b hb]
  · rw [hone l hl]
    rfl

/-- A call returns the lock of its request; later calls return it again. -/
theorem returned_republication : let E := Externals.constant (.replicate 7)
    let events := marksThen [.advance 0 .runs ⟨1⟩, .advance 0 .runs ⟨1⟩]
    let lock := staticRequest.contentLock 0
    FaithfulLocks E (LocksOf (events ++ [.call staticRequest 0])) ∧
      ∃ s : PublishState, s.Returned staticRequest sameId lock ∧
        s.stores.tables.deletionExists staticRequest.creator sameId = false ∧
        s.ReturnsAgain .lenient E describedResources events staticRequest sameId lock ∧
        s.Resumes .lenient E describedResources staticRequest sameId lock ∧
        s.RefusesOthers .lenient E describedResources events staticRequest := by
  intro E events lock
  have hfree : ∀ l, (∀ e ∈ l, e = LockEvent.call staticRequest 0) →
      FaithfulLocks E (LocksOf (events ++ l)) := by
    intro l hl
    refine faithfulLocks_of_one (List.forall_mem_append.2 ⟨?_, fun e he => ?_⟩)
    · simp [events, marksThen, writes]
    · rw [hl e he]
      exact ⟨rfl, rfl⟩
  have h := markedWritten_of_any (E := E)
    [.advance 0 .runs ⟨1⟩, .advance 0 .runs ⟨1⟩]
    (fun s => !s.stores.tables.deletionExists staticRequest.creator sameId &&
      decide (s.calls[0]? = some ⟨staticRequest.contentLock 0, .finished (.ok ⟨sameId, lock⟩)⟩))
    (by decide +kernel)
  obtain ⟨s, hrun, hmarked, hend⟩ := h
  rw [Bool.and_eq_true, decide_eq_true_eq, Bool.not_eq_true'] at hend
  have hret : s.Returned staticRequest sameId lock := ⟨0, 0, hend.2⟩
  obtain ⟨hagain, hresumes, hothers⟩ := republication .lenient E describedResources events s
    staticRequest sameId lock hrun
  refine ⟨hfree _ (by simp), s, hret, hend.1, hagain hret, hresumes hmarked ?_ hend.1,
    hothers (.inl hret)⟩
  rw [← List.append_nil events]
  exact hfree [] (by simp)

/-- Two calls that are refused although a write of the lock was marked, there is no
    deletion and nothing fails.  The first one runs alone, after a call that began
    the publication again and stopped before its write was marked; the second one
    runs beside another retry. -/
theorem retries_refused : let E := Externals.constant (.replicate 7)
    let lock := staticRequest.contentLock 0
    let stopped := marksThen [.advance 0 .runs ⟨1⟩, .stop 0, .call staticRequest 0,
      .advance 1 .runs ⟨2⟩, .advance 1 .runs ⟨2⟩, .advance 1 .runs ⟨2⟩, .advance 1 .runs ⟨2⟩,
      .advance 1 .runs ⟨2⟩, .advance 1 .runs ⟨2⟩, .stop 1]
    let beside := marksThen [.stop 0, .call staticRequest 0, .call staticRequest 0,
      .advance 1 .runs ⟨2⟩, .advance 1 .runs ⟨2⟩, .advance 1 .runs ⟨2⟩, .advance 2 .runs ⟨3⟩,
      .advance 2 .runs ⟨3⟩, .advance 2 .runs ⟨3⟩, .advance 1 .runs ⟨2⟩, .advance 2 .runs ⟨3⟩]
    (FaithfulLocks E (LocksOf stopped) ∧
      ∃ s, MarkedWritten .lenient E describedResources stopped s staticRequest sameId lock ∧
        s.stores.tables.deletionExists staticRequest.creator sameId = false ∧
        s.answerAlone .lenient E staticRequest describedResources 0 ⟨3⟩ 2 =
          some (.error .contentLockPublicationInProgress)) ∧
    FaithfulLocks E (LocksOf beside) ∧
      ∃ s, MarkedWritten .lenient E describedResources beside s staticRequest sameId lock ∧
        s.stores.tables.deletionExists staticRequest.creator sameId = false ∧
        s.calls[2]? = some ⟨lock, .finished (.error
          (.storage "content lock publication reconciliation was not committed"))⟩ := by
  intro E lock stopped beside
  have hfree : FaithfulLocks E (LocksOf stopped) ∧ FaithfulLocks E (LocksOf beside) := by
    constructor <;> refine faithfulLocks_of_one ?_ <;>
      simp [stopped, beside, marksThen, writes]
  refine ⟨⟨hfree.1, ?_⟩, hfree.2, ?_⟩
  · have h := markedWritten_of_any (E := E)
      [.advance 0 .runs ⟨1⟩, .stop 0, .call staticRequest 0, .advance 1 .runs ⟨2⟩,
        .advance 1 .runs ⟨2⟩, .advance 1 .runs ⟨2⟩, .advance 1 .runs ⟨2⟩, .advance 1 .runs ⟨2⟩,
        .advance 1 .runs ⟨2⟩, .stop 1]
      (fun s => !s.stores.tables.deletionExists staticRequest.creator sameId &&
        decide (s.answerAlone .lenient E staticRequest describedResources 0 ⟨3⟩ 2 =
          some (.error .contentLockPublicationInProgress)))
      (by decide +kernel)
    obtain ⟨s, -, hmarked, hend⟩ := h
    rw [Bool.and_eq_true, decide_eq_true_eq, Bool.not_eq_true'] at hend
    exact ⟨s, hmarked, hend⟩
  · have h := markedWritten_of_any (E := E)
      [.stop 0, .call staticRequest 0, .call staticRequest 0, .advance 1 .runs ⟨2⟩,
        .advance 1 .runs ⟨2⟩, .advance 1 .runs ⟨2⟩, .advance 2 .runs ⟨3⟩, .advance 2 .runs ⟨3⟩,
        .advance 2 .runs ⟨3⟩, .advance 1 .runs ⟨2⟩, .advance 2 .runs ⟨3⟩]
      (fun s => !s.stores.tables.deletionExists staticRequest.creator sameId &&
        decide (s.calls[2]? = some ⟨lock, .finished (.error
          (.storage "content lock publication reconciliation was not committed"))⟩))
      (by decide +kernel)
    obtain ⟨s, -, hmarked, hend⟩ := h
    rw [Bool.and_eq_true, decide_eq_true_eq, Bool.not_eq_true'] at hend
    exact ⟨s, hmarked, hend⟩

end PubkyLocks
