/-
  Retries of `CreateContentLock::execute` for locks whose paths are reserved.

  A retry asks for the same lock, created at a later time.  It finds the lock
  that owns its paths, and resumes the publication of that lock instead of
  reserving the paths again.
-/
import PubkyLocks.Core.Resources
import PubkyLocks.Publishing.Resumption

namespace PubkyLocks

open PublicationTables PublishState Ownership Checks CreateContentLockRequest

/-! ## Retries -/

/-- The call ends, and not with a conflict. -/
def EndsWell (E : Externals) (requested : ContentLock) (token : Uuid)
    (a : PublishStores × CreatePhase) : Prop :=
  ∃ stores result, AloneRun E requested token a (stores, .finished result) ∧
    ∀ p, result ≠ .error (.contentLockPathConflict p)

/-- **Retries.**  A retry of a lock whose paths are reserved ends, and not with a
    conflict, if the lock is on the homeserver or its intent is not marked. -/
theorem OwnedLock.endsWell {E : Externals} {stores : PublishStores} {token : Uuid}
    {lock requested : ContentLock} {lockId : LockId}
    (h : OwnedLock E stores .reserved lock requested lockId)
    (hnodup : (publicationGuardedPaths lock).Nodup)
    (hkeys : (stores.tables.intents.map PublicationIntent.key).Nodup)
    (hpublished : (∀ i, stores.tables.intent? lock.creator lockId = some i → i.written) →
      stores.published lock.creator lockId = some lock)
    (hfresh : ∀ i ∈ stores.tables.intents, i.publicationToken ≠ token) :
    EndsWell E requested token (stores, .readingOwnership []) := by
  cases hdel : stores.tables.deletionExists lock.creator lockId with
  | true =>
    have hrecover : stores.tables.recoverPublication E lock.creator lockId requested =
        .error .contentLockDeletionInProgress := by
      unfold recoverPublication
      rw [hdel]
      rfl
    exact ⟨stores, _, h.alone_recovered hrecover, by rintro p ⟨⟩⟩
  | false =>
    by_cases hwritten : ∀ i, stores.tables.intent? lock.creator lockId = some i → i.written
    · have hlanded : LandedLock E stores .reserved lock requested lockId :=
        ⟨h, hnodup, hpublished hwritten, hdel, hkeys⟩
      obtain ⟨stores', hend, -⟩ := hlanded.resumes hfresh hwritten
      exact ⟨stores', _, hend, by rintro p ⟨⟩⟩
    · simp only [not_forall, Bool.not_eq_true] at hwritten
      obtain ⟨i, hi, hw⟩ := hwritten
      exact ⟨stores, _, h.pending hdel hi hw, by rintro p ⟨⟩⟩

section
variable {C : Codec} {E : Externals} {resources : GuardedResourceRepository}
  {q : CreateContentLockRequest} {now : Timestamp}

theorem CreateContentLockRequest.paths_of_validated (h : (q.validated C E resources now).isOk) :
    publicationGuardedPaths (q.contentLock now) ≠ [] ∧
      (publicationGuardedPaths (q.contentLock now)).Nodup := by
  obtain ⟨lock, hlock⟩ := isOk_iff.1 h
  simp only [validated, seq_eq_ok] at hlock
  have hset := mapError_eq_ok.1 hlock.1
  refine ⟨fun hempty => ?_, ?_⟩
  · simp only [ContentLock.validateResourceSet, seq_eq_ok, refuse_eq_ok] at hset
    refine hset.1 ?_
    simp only [publicationGuardedPaths, List.append_eq_nil_iff, List.map_eq_nil_iff] at hempty
    have hprimary : (q.contentLock now).primaryResource = none := by
      cases hp : (q.contentLock now).primaryResource with
      | none => rfl
      | some r => rw [hp] at hempty; exact absurd hempty.1 (List.cons_ne_nil _ _)
    simp [ContentLock.resourceCount, hprimary, hempty.2]
  · rw [← path_resourceDescriptors]
    exact nodup_paths (ContentLock.apart_of_validate hset)

end

/-! ## Runs -/

namespace PublishState

variable (C : Codec) (E : Externals)

/-- The answer to a request that runs alone for `n` operations, if it has ended
    by then. -/
def answerAlone (s : PublishState) (request : CreateContentLockRequest)
    (resources : GuardedResourceRepository) (now : Timestamp) (token : Uuid) (n : ℕ) :
    Option (Except ApplicationError CreatedContentLock) :=
  let s' := runAlone C E s.calls.length token n
    { s with calls := s.calls ++ [start C E request resources now] }
  match s'.calls[s.calls.length]? with
  | some ⟨_, .finished result⟩ => some result
  | _ => none

/-- Every reserved path has an intent of its lock, or the lock is on the
    homeserver. -/
def Covered (s : PublishState) : Prop :=
  ∀ o ∈ s.stores.tables.ownership, o.status = .reserved →
    (∃ i ∈ s.stores.tables.intents, i.creator = o.creator ∧ i.lockId = o.lockId) ∨
      s.stores.HasLock E o.creator o.lockId

/-- Every reserved path belongs to a lock that a call asked for, and whose retry
    is answered, and not with a conflict. -/
def Retriable (events : List PublishEvent) (s : PublishState) : Prop :=
  ∀ o ∈ s.stores.tables.ownership, o.status = .reserved →
    ∃ request resources now, PublishEvent.call request resources now ∈ events ∧
      o.For E (request.contentLock now) ∧
      ∀ resources now token, (request.validated C E resources now).isOk →
        (∀ i ∈ s.stores.tables.intents, i.publicationToken ≠ token) →
        ∃ n result, s.answerAlone C E request resources now token n = some result ∧
          ∀ p, result ≠ .error (.contentLockPathConflict p)

end PublishState

/-- The locks of a run: those its calls ask for and those it starts with. -/
def InPlay (events : List PublishEvent)
    (published : CreatorPubky → LockId → Option ContentLock) (lock : ContentLock) : Prop :=
  Asked events lock ∨ ∃ creator lockId, published creator lockId = some lock

section
variable {C : Codec} {E : Externals} {s : PublishState}

theorem CreatePhase.held_of_ended {phase : CreatePhase} (h : phase.ended) : phase.held? = none := by
  cases phase <;> first | rfl | cases h

variable {o : ContentLockOwnership} {P Q : ContentLock → Prop} {token : Uuid}

theorem PublishInvariant.safe (hinv : PublishInvariant E s) (hq : s.quiescent)
    (ho : o ∈ s.stores.tables.ownership) (hs : o.status = .reserved) :
    s.stores.Safe E o := by
  rcases hinv.reserved o ho hs with h | ⟨j, d, hd, hheld, -, -⟩
  · exact h
  · have hended := List.all_eq_true.1 hq d (List.mem_of_getElem? hd)
    rw [CreatePhase.held_of_ended hended] at hheld
    cases hheld

theorem publishInvariant_init (deletions : List IntentKey)
    (published : CreatorPubky → LockId → Option ContentLock) :
    PublishInvariant E (init deletions published) where
  reserved := by rintro o ⟨⟩
  written := by rintro i ⟨⟩
  keys := List.nodup_nil
  inFlight := by rintro w ⟨⟩
  knows := by rintro c ⟨⟩

theorem retryInvariant_init (deletions : List IntentKey)
    {published : CreatorPubky → LockId → Option ContentLock}
    (h : ∀ creator lockId lock, published creator lockId = some lock → P lock) :
    RetryInvariant E P Q (init deletions published) where
  tables := ⟨⟨List.nodup_nil, by rintro o ⟨⟩⟩, by rintro i ⟨⟩⟩
  published := h
  inFlight := by rintro w ⟨⟩
  calls := by rintro c ⟨⟩

theorem endsWell_reserved (hfree : FaithfulLocks E P) (hsub : ∀ l, Q l → P l)
    (hknown : PublishInvariant E s) (hinv : RetryInvariant E P Q s) (hq : s.quiescent)
    (ho : o ∈ s.stores.tables.ownership) (hs : o.status = .reserved) {lock : ContentLock}
    (hlock : Q lock) (hfor : o.For E lock) (hnodup : (publicationGuardedPaths lock).Nodup)
    (hfresh : ∀ i ∈ s.stores.tables.intents, i.publicationToken ≠ token) (now : Timestamp) :
    EndsWell E { lock with createdAt := now } token (s.stores, .readingOwnership []) := by
  obtain ⟨hcreator, hid, hpath⟩ := hfor
  have hhas : s.stores.HasLock E o.creator o.lockId →
      s.stores.published lock.creator o.lockId = some lock := by
    rintro ⟨l, hpub, hl⟩
    rw [hcreator, hpub]
    exact congrArg some
      (hfree.apart l lock o.lockId (hinv.published _ _ _ hpub) (hsub _ hlock) hl hid)
  have hkey : ∀ i, s.stores.tables.intent? lock.creator o.lockId = some i →
      i ∈ s.stores.tables.intents ∧ i.creator = o.creator ∧ i.lockId = o.lockId := by
    intro i hi
    have hfound := List.find?_some hi
    simp only [Bool.and_eq_true, beq_iff_eq] at hfound
    exact ⟨List.mem_of_find?_eq_some hi, hfound.1.trans hcreator, hfound.2⟩
  have howned : OwnedLock E s.stores .reserved lock { lock with createdAt := now } o.lockId := by
    refine ⟨rfl, hid, hfree.stored lock (hsub _ hlock), List.ne_nil_of_mem hpath, fun p hp => ?_,
      fun i hi => ?_⟩
    · have hrow := hinv.tables.uniform.row_of_mem hfree hsub (hsub _ hlock) ho hid hp
      have hget := getPathOwnership_eq_some hinv.tables.uniform.keys hrow
      rw [hs] at hget
      rw [hcreator]
      exact hget
    · obtain ⟨hmem, -, hl⟩ := hkey i hi
      obtain ⟨hoP, -, hoid⟩ := hinv.tables.intents i hmem
      rw [hl] at hoid
      exact hfree.apart _ lock o.lockId hoP (hsub _ hlock) hoid hid
  refine howned.endsWell hnodup hknown.keys (fun hwritten => ?_) hfresh
  rcases hknown.safe hq ho hs with ⟨i, hi, hcov⟩ | h
  · cases hintent : s.stores.tables.intent? lock.creator o.lockId with
    | none =>
      refine absurd ?_ (List.find?_eq_none.1 hintent i hi)
      simp [hcov.1, hcov.2.1, hcreator]
    | some j =>
      obtain ⟨hmem, hc, hl⟩ := hkey j hintent
      have hpub := hknown.written j hmem (hwritten j hintent)
      rw [hc, hl] at hpub
      exact hhas hpub
  · exact hhas h

theorem answerAlone_of_endsWell {request : CreateContentLockRequest}
    {resources : GuardedResourceRepository} {now : Timestamp}
    (hok : (request.validated C E resources now).isOk)
    (h : EndsWell E (request.contentLock now) token (s.stores, .readingOwnership [])) :
    ∃ n result, s.answerAlone C E request resources now token n = some result ∧
      ∀ p, result ≠ .error (.contentLockPathConflict p) := by
  obtain ⟨stores, result, hsteps, hresult⟩ := h
  obtain ⟨n, hn⟩ := runAlone_of_steps C s.calls hsteps
  have hstart : start C E request resources now =
      ⟨request.contentLock now, .readingOwnership []⟩ := by
    obtain ⟨lock, hlock⟩ := Checks.isOk_iff.1 hok
    simp only [start, hlock]
  refine ⟨n, result, ?_, hresult⟩
  unfold answerAlone
  dsimp only at hn ⊢
  rw [hstart, hn]
  simp

end

/-- **Reservations are covered, and retries resume them.**  In every run of calls
    that meet the condition, at rest every reserved path has an intent or its lock
    is published; and a retry of the lock is answered, and not with a conflict,
    unless two locks of the run have the same id or a JSONB column changes one. -/
theorem reservations_covered (C : Codec) (E : Externals) (deletions : List IntentKey)
    (published : CreatorPubky → LockId → Option ContentLock) (events : List PublishEvent)
    (s : PublishState)
    (hrun : Runs.Run
      (Runs.restrict (Runs.ofExec (PublishState.exec C E)) fun s e => publishSafe s e)
      (PublishState.init deletions published) events s) (hq : s.quiescent) :
    s.Covered E ∧ (FaithfulLocks E (InPlay events published) → s.Retriable C E events) := by
  have hknown : PublishInvariant E s :=
    hrun.invariant (publishInvariant_init deletions published) fun s e t hinv hstep =>
      publishInvariant_exec hinv hstep.2 hstep.1
  refine ⟨fun o ho hs => ?_, fun hfree => ?_⟩
  · exact (hknown.safe hq ho hs).imp (fun ⟨i, hi, hcov⟩ => ⟨i, hi, hcov.1, hcov.2.1⟩) id
  have hsub : ∀ l, Asked events l → InPlay events published l := fun l => .inl
  have hboth : (PublishInvariant E s ∧ ∀ c ∈ s.calls, c.Same) ∧
      RetryInvariant E (InPlay events published) (Asked events) s := by
    refine hrun.restrict_mem.invariant
      (I := fun s => (PublishInvariant E s ∧ ∀ c ∈ s.calls, c.Same) ∧
        RetryInvariant E (InPlay events published) (Asked events) s)
      ⟨⟨publishInvariant_init deletions published, fun c hc => absurd hc List.not_mem_nil⟩,
        retryInvariant_init deletions fun c l lock h => .inr ⟨c, l, h⟩⟩ ?_
    rintro s e t ⟨⟨hknown, hsame⟩, hinv⟩ ⟨⟨hexec, hsafe⟩, hmem⟩
    refine ⟨⟨publishInvariant_exec hknown hsafe hexec, same_exec hsame hexec⟩,
      retryInvariant_exec hfree hsub ?_ hknown hsame hinv hexec⟩
    rintro lock ⟨request, resources, now, hcall, rfl⟩
    rw [← List.mem_singleton.1 hcall] at hmem
    exact ⟨request, resources, now, hmem, rfl⟩
  intro o ho hs
  obtain ⟨lock, hasked, hfor, -⟩ := hboth.2.tables.uniform.rows o ho
  obtain ⟨request, resources, now, hmem, rfl⟩ := id hasked
  refine ⟨request, resources, now, hmem, hfor, fun resources' now' token hok hfresh => ?_⟩
  exact answerAlone_of_endsWell hok (endsWell_reserved hfree hsub hknown hboth.2 hq ho hs hasked
    hfor (paths_of_validated hok).2 hfresh now')

/-- A call stops after its reservation: its path is reserved without an intent
    or a published lock, and the retry is answered with a conflict. -/
theorem stopped_reservation_orphaned : let E := Externals.constant (.replicate 7)
    ∃ s, Runs.execList (PublishState.exec .lenient E) (.init [] fun _ _ => none)
        [.call staticRequest describedResources 0, .advance 0 .runs ⟨1⟩, .advance 0 .runs ⟨1⟩,
          .stop 0] = some s ∧
      s.quiescent ∧ ¬ s.Covered E ∧
      s.answerAlone .lenient E staticRequest describedResources 1 ⟨2⟩ 4 =
        some (.error (.contentLockPathConflict "/priv/app.locks/content/post.json")) := by
  have h : (Runs.execList (exec .lenient (Externals.constant (.replicate 7)))
      (.init [] fun _ _ => none)
      [.call staticRequest describedResources 0, .advance 0 .runs ⟨1⟩, .advance 0 .runs ⟨1⟩,
        .stop 0]).isSome := rfl
  refine ⟨_, (Option.some_get h).symm, rfl, fun hcov => ?_, rfl⟩
  rcases hcov _ List.mem_cons_self rfl with ⟨i, hi, -⟩ | ⟨lock, hlock, -⟩
  · cases hi
  · cases hlock

/-- A call stops after its intent: the path is covered, and can be retried. -/
theorem stopped_publication_covered : let E := Externals.constant (.replicate 7)
    let events : List PublishEvent := [.call staticRequest describedResources 0,
      .advance 0 .runs ⟨1⟩, .advance 0 .runs ⟨1⟩, .advance 0 .runs ⟨1⟩, .stop 0]
    FaithfulLocks E (InPlay events fun _ _ => none) ∧
      ∃ s, Runs.execList (PublishState.exec .lenient E) (.init [] fun _ _ => none) events =
          some s ∧
        s.stores.tables.ownership ≠ [] ∧ s.Covered E ∧ s.Retriable .lenient E events := by
  intro E events
  have hfree : FaithfulLocks E (InPlay events fun _ _ => none) := by
    have hone : ∀ lock, InPlay events (fun _ _ => none) lock →
        lock = staticRequest.contentLock 0 := by
      rintro lock (⟨request, resources, now, hmem, rfl⟩ | ⟨creator, lockId, h⟩)
      · simp only [events, List.mem_cons, PublishEvent.call.injEq, reduceCtorEq, or_false,
          List.not_mem_nil] at hmem
        obtain ⟨rfl, -, rfl⟩ := hmem
        rfl
      · cases h
    refine ⟨fun a b _ ha hb _ _ => ?_, fun l hl => ?_⟩
    · rw [hone a ha, hone b hb]
    · rw [hone l hl]
      rfl
  have h : (Runs.execList (Runs.guarded (exec .lenient E) publishSafe)
      (.init [] fun _ _ => none) events).isSome := rfl
  obtain ⟨hcov, hretry⟩ := reservations_covered .lenient E [] (fun _ _ => none) events _
    (Runs.run_of_guarded _ _ (Option.some_get h).symm) rfl
  exact ⟨hfree, _, rfl, List.cons_ne_nil _ _, hcov, hretry hfree⟩

end PubkyLocks
