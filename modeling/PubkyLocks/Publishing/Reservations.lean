/-
  Reserved paths along every run of `CreateContentLock::execute`.

  A guarded path that is reserved for a lock is `Safe` if an intent of the lock
  says so or the lock is on the homeserver.  Between its reservation and its
  intent, only the call itself knows about it.  So the reservations are safe once
  the calls have ended, if no call ends in between (`publishSafe`).
-/
import PubkyLocks.Publishing.RequestedLocks

namespace PubkyLocks

open CreateCall PublicationTables CreatePhase Ownership

/-! ## The invariant -/

/-- The homeserver has the lock at its canonical path. -/
def PublishStores.HasLock (E : Externals) (s : PublishStores) (creator : CreatorPubky)
    (lockId : LockId) : Prop :=
  ∃ lock, s.published creator lockId = some lock ∧ lock.lockId E = .ok lockId

/-- The intent is one for the lock that owns the path, and its lock guards the
    path. -/
def PublicationIntent.Covers (i : PublicationIntent) (o : ContentLockOwnership) : Prop :=
  i.creator = o.creator ∧ i.lockId = o.lockId ∧
    o.guardedPath ∈ publicationGuardedPaths i.originalContentLock

/-- A reservation that does not depend on a call. -/
def PublishStores.Safe (E : Externals) (s : PublishStores) (o : ContentLockOwnership) : Prop :=
  (∃ i ∈ s.tables.intents, i.Covers o) ∨ s.HasLock E o.creator o.lockId

/-- The lock whose paths a call has reserved before it has an intent. -/
def CreatePhase.held? : CreatePhase → Option LockId
  | beginning true _ lockId | compensatingPaths lockId _ => some lockId
  | _ => none

/-- The call has reserved the path, and has no intent for it yet. -/
def CreateCall.Holds (c : CreateCall) (o : ContentLockOwnership) : Prop :=
  c.phase.held? = some o.lockId ∧ c.requested.creator = o.creator ∧ o.guardedPath ∈ c.guardedPaths

/-- What a call relies on in a phase. -/
def CreatePhase.Knows (E : Externals) (s : PublishStores) (requested : ContentLock) :
    CreatePhase → Prop
  | recoveringAgain _ lock lockId =>
    lock.lockId E = .ok lockId ∧ s.HasLock E requested.creator lockId
  | reserving lock lockId => lock = requested ∧ lock.lockId E = .ok lockId
  | beginning newly lock lockId | writing newly lock lockId _ =>
    lock.lockId E = .ok lockId ∧ (newly = true → lock = requested) ∧
      (newly = false → s.HasLock E requested.creator lockId)
  | abandoning lockId _ _ _ | markingWritten _ lockId _ _ => s.HasLock E requested.creator lockId
  | _ => True

/-- Every reserved path is safe or held by a call; completed writes are on the
    homeserver. -/
structure PublishInvariant (E : Externals) (s : PublishState) : Prop where
  reserved : ∀ o ∈ s.stores.tables.ownership, o.status = .reserved →
    s.stores.Safe E o ∨ ∃ (j : ℕ) (d : CreateCall), s.calls[j]? = some d ∧ d.Holds o
  written : ∀ i ∈ s.stores.tables.intents, i.written → s.stores.HasLock E i.creator i.lockId
  keys : (s.stores.tables.intents.map PublicationIntent.key).Nodup
  inFlight : ∀ w ∈ s.stores.inFlight, w.lock.lockId E = .ok w.lockId
  knows : ∀ c ∈ s.calls, Knows E s.stores c.requested c.phase

/-- The condition on an event: a call that holds reserved paths does not stop,
    the answer of a reservation is not lost, and a compensation of reserved paths
    does not fail. -/
def publishSafe (s : PublishState) : PublishEvent → Bool
  | .stop i => (s.calls[i]?).all fun c => c.phase.held?.isNone
  | .advance i r _ => (s.calls[i]?).all fun c => match c.phase, r with
    | .reserving _ _, .lost _ => false
    | .compensatingPaths _ _, .fails _ => false
    | _, _ => true
  | _ => true

variable {E : Externals} {s : PublishState} {c : CreateCall} {i : ℕ}

variable {stores : PublishStores} {phase : CreatePhase} {r : OperationResult}
  {creator : CreatorPubky} {lockId : LockId} {lock : ContentLock} {paths : List String}
  {a newly : Bool} {t : PublicationTables} {token : Uuid} {w : LockWrite}

/-- What a call relies on stays true as long as locks stay on the homeserver. -/
theorem CreatePhase.Knows.mono {stores' : PublishStores} {requested : ContentLock}
    (h : Knows E stores requested phase)
    (hmono : ∀ creator lockId, stores.HasLock E creator lockId → stores'.HasLock E creator lockId) :
    Knows E stores' requested phase := by
  unfold Knows at h ⊢
  split at h
  · exact ⟨h.1, hmono _ _ h.2⟩
  · exact h
  · exact ⟨h.1, h.2.1, fun hn => hmono _ _ (h.2.2 hn)⟩
  · exact ⟨h.1, h.2.1, fun hn => hmono _ _ (h.2.2 hn)⟩
  · exact hmono _ _ h
  · exact hmono _ _ h
  · trivial

/-- **One call moves.**  The invariant is kept if every reserved row is safe, or
    held by the call in its new phase, or was there before, is no less safe than
    it was and was not held by the call. -/
theorem publishInvariant_setPhase (hinv : PublishInvariant E s) (hc : s.calls[i]? = some c)
    (hmono : ∀ creator lockId, s.stores.HasLock E creator lockId → stores.HasLock E creator lockId)
    (hrows : ∀ o ∈ stores.tables.ownership, o.status = .reserved →
      stores.Safe E o ∨ Holds ⟨c.requested, phase⟩ o ∨
        o ∈ s.stores.tables.ownership ∧ (s.stores.Safe E o → stores.Safe E o) ∧ ¬ c.Holds o)
    (hwritten : ∀ i ∈ stores.tables.intents, i.written → stores.HasLock E i.creator i.lockId)
    (hkeys : (stores.tables.intents.map PublicationIntent.key).Nodup)
    (hinFlight : ∀ w ∈ stores.inFlight, w.lock.lockId E = .ok w.lockId)
    (hknows : Knows E stores c.requested phase) :
    PublishInvariant E (s.setPhase i c stores phase) where
  reserved := by
    have hi : i < s.calls.length := (List.getElem?_eq_some_iff.1 hc).1
    intro o ho hs
    rcases hrows o ho hs with hsafe | hhold | ⟨hold, hsafe, hnot⟩
    · exact .inl hsafe
    · exact .inr ⟨i, _, List.getElem?_set_self hi, hhold⟩
    · rcases hinv.reserved o hold hs with h | ⟨j, d, hd, hholds⟩
      · exact .inl (hsafe h)
      · refine .inr ⟨j, d, ?_, hholds⟩
        have hne : i ≠ j := by
          rintro rfl
          cases hc.symm.trans hd
          exact hnot hholds
        exact (List.getElem?_set_ne hne).trans hd
  written := hwritten
  keys := hkeys
  inFlight := hinFlight
  knows := by
    intro d hd
    rcases List.mem_or_eq_of_mem_set hd with hd | rfl
    · exact (hinv.knows d hd).mono hmono
    · exact hknows

theorem publishInvariant_read (hinv : PublishInvariant E s) (hc : s.calls[i]? = some c)
    (hnone : c.phase.held? = none)
    (hknows : Knows E s.stores c.requested phase) :
    PublishInvariant E (s.setPhase i c s.stores phase) := by
  refine publishInvariant_setPhase hinv hc (fun _ _ h => h) (fun o ho _ => ?_) hinv.written
    hinv.keys hinv.inFlight hknows
  refine .inr (.inr ⟨ho, fun h => h, fun hholds => ?_⟩)
  rw [hholds.1] at hnone
  cases hnone

theorem OperationResult.apply_tables {α : Type} (r : OperationResult) (t : PublicationTables)
    (op : Except ApplicationError (α × PublicationTables)) :
    (r.apply t op).2 = t ∨ ∃ a, op = .ok (a, (r.apply t op).2) := by
  unfold OperationResult.apply
  split
  · exact .inr ⟨_, rfl⟩
  · exact .inl rfl
  · exact .inl rfl
  · exact .inr ⟨_, rfl⟩
  · exact .inl rfl

/-- An operation of a call that holds nothing: no reserved row is new, and a row
    loses an intent only if its lock is on the homeserver. -/
structure KeepsReservations (E : Externals) (s : PublishStores) (t : PublicationTables) : Prop where
  rows : ∀ o ∈ t.ownership, o.status = .reserved → o ∈ s.tables.ownership ∧
    (s.Safe E o → PublishStores.Safe E { s with tables := t } o)
  written : ∀ i ∈ t.intents, i.written → s.HasLock E i.creator i.lockId
  keys : (t.intents.map PublicationIntent.key).Nodup

theorem KeepsReservations.refl (hinv : PublishInvariant E s) :
    KeepsReservations E s.stores s.stores.tables :=
  ⟨fun _ ho _ => ⟨ho, fun h => h⟩, hinv.written, hinv.keys⟩

theorem publishInvariant_operate (hinv : PublishInvariant E s) (hc : s.calls[i]? = some c)
    (hnone : c.phase.held? = none) {α : Type}
    {op : Except ApplicationError (α × PublicationTables)}
    {next : Except ApplicationError α → CreatePhase}
    (hop : ∀ a t, op = .ok (a, t) → KeepsReservations E s.stores t)
    (hknows : ∀ a, Knows E s.stores c.requested (next a))
    (h : s.stores.operate r op next = (stores, phase)) :
    PublishInvariant E (s.setPhase i c stores phase) := by
  cases h
  have hkeeps : KeepsReservations E s.stores (r.apply s.stores.tables op).2 := by
    rcases r.apply_tables s.stores.tables op with h | ⟨a, h⟩
    · rw [h]
      exact .refl hinv
    · exact hop a _ h
  refine publishInvariant_setPhase hinv hc (fun _ _ h => h) (fun o ho hs => ?_) hkeeps.written
    hkeeps.keys hinv.inFlight (hknows _)
  obtain ⟨hold, hsafe⟩ := hkeeps.rows o ho hs
  refine .inr (.inr ⟨hold, hsafe, fun hholds => ?_⟩)
  rw [hholds.1] at hnone
  cases hnone

/-! ## Operations that keep reservations -/

theorem nodup_filter_keys {intents : List PublicationIntent} {p : PublicationIntent → Bool}
    (h : (intents.map PublicationIntent.key).Nodup) :
    ((intents.filter p).map PublicationIntent.key).Nodup :=
  h.sublist (List.filter_sublist.map _)

section
variable (hinv : PublishInvariant E s)
include hinv

theorem keeps_reconcile
    (h : s.stores.tables.reconcilePublication E creator lockId lock paths = .ok (a, t)) :
    KeepsReservations E s.stores t := by
  unfold reconcilePublication at h
  split at h
  · cases h
    exact .refl hinv
  · split at h
    · split at h
      · cases h
        refine ⟨fun o ho _ => ⟨ho, ?_⟩, fun i hi => hinv.written i (List.mem_of_mem_filter hi),
          nodup_filter_keys hinv.keys⟩
        rintro (⟨i, hi, hcov⟩ | h)
        · by_cases hw : i.written
          · -- the intent of a completed write may go, since its lock is published
            have := hinv.written i hi hw
            rw [hcov.1, hcov.2.1] at this
            exact .inr this
          · exact .inl ⟨i, List.mem_filter.2 ⟨hi, by simp [hw]⟩, hcov⟩
        · exact .inr h
      · cases h
        exact .refl hinv
    · cases h
      exact .refl hinv

theorem keeps_markPublished {a : Unit} (h : s.stores.tables.withOwnership
      (markPathsPublished s.stores.tables.ownership creator paths lockId) =
        .ok (a, t)) : KeepsReservations E s.stores t := by
  obtain ⟨rows, hrows, h⟩ := Checks.map_eq_ok.1 h
  cases h
  rw [markPathsPublished_eq hrows]
  refine ⟨fun o ho hs => ⟨?_, fun h => h⟩, hinv.written, hinv.keys⟩
  obtain ⟨q, hq, ⟨-, rfl⟩ | ⟨-, rfl⟩⟩ := Table.mem_updateWhere.1 ho
  · cases hs
  · exact hq

theorem keeps_abandon (hpub : s.stores.HasLock E creator lockId)
    (h : s.stores.tables.abandonPublication creator lockId token = .ok (a, t)) :
    KeepsReservations E s.stores t := by
  cases h
  refine ⟨fun o ho _ => ⟨ho, ?_⟩, fun i hi => hinv.written i (List.mem_of_mem_filter hi),
    nodup_filter_keys hinv.keys⟩
  rintro (⟨i, hi, hcov⟩ | h)
  · by_cases hk : holdsToken creator lockId token i
    · have hkey := hk
      simp only [holdsToken, Bool.and_eq_true, beq_iff_eq] at hkey
      rw [← hkey.1.1, ← hkey.1.2, hcov.1, hcov.2.1] at hpub
      exact .inr hpub
    · exact .inl ⟨i, List.mem_filter.2 ⟨hi, by simp [hk]⟩, hcov⟩
  · exact .inr h

theorem keeps_markWritten (hpub : s.stores.HasLock E creator lockId)
    (h : s.stores.tables.markPublicationWritten creator lockId token = .ok (a, t)) :
    KeepsReservations E s.stores t := by
  cases h
  refine ⟨fun o ho _ => ⟨ho, ?_⟩, ?_, ?_⟩
  · rintro (⟨i, hi, hcov⟩ | h)
    · by_cases hk : holdsToken creator lockId token i
      · exact .inl ⟨_, Table.mem_updateWhere.2 ⟨i, hi, .inl ⟨hk, rfl⟩⟩, hcov⟩
      · exact .inl ⟨i, Table.mem_updateWhere.2 ⟨i, hi, .inr ⟨by simpa using hk, rfl⟩⟩, hcov⟩
    · exact .inr h
  · intro j hj hw
    obtain ⟨i, hi, ⟨hk, rfl⟩ | ⟨-, rfl⟩⟩ := Table.mem_updateWhere.1 hj
    · simp only [holdsToken, Bool.and_eq_true, beq_iff_eq] at hk
      show s.stores.HasLock E i.creator i.lockId
      rw [hk.1.1, hk.1.2]
      exact hpub
    · exact hinv.written j hi hw
  · have hmap : (Table.updateWhere (holdsToken creator lockId token)
        (fun i => { i with written := true }) s.stores.tables.intents).map PublicationIntent.key =
        s.stores.tables.intents.map PublicationIntent.key :=
      Table.map_updateWhere fun _ _ _ => rfl
    show (List.map _ (Table.updateWhere _ _ _)).Nodup
    rw [hmap]
    exact hinv.keys

theorem keeps_compensate
    (h : s.stores.tables.compensatePublication creator lockId token = .ok (a, t)) :
    KeepsReservations E s.stores t := by
  unfold compensatePublication at h
  split at h
  · cases h
    exact .refl hinv
  · rename_i i hfind
    cases h
    refine ⟨fun o ho hs => ?_, fun i hi => hinv.written i (List.mem_of_mem_filter hi),
      nodup_filter_keys hinv.keys⟩
    obtain ⟨hold, hkept⟩ := List.mem_filter.1 ho
    refine ⟨hold, ?_⟩
    rintro (⟨j, hj, hcov⟩ | h)
    · by_cases hk : uncompleted creator lockId token j
      · -- the intent of the token is the one whose paths are released
        have hi := List.find?_some hfind
        have hkeyi := key_of_uncompleted hi
        have hkeyj := key_of_uncompleted hk
        have hij : i = j := List.inj_on_of_nodup_map hinv.keys
          (List.mem_of_find?_eq_some hfind) hj (hkeyi.trans hkeyj.symm)
        subst hij
        obtain ⟨hcreator, hlock⟩ := Prod.mk.inj hkeyi
        exfalso
        have : compensated creator
            (publicationGuardedPaths i.originalContentLock) lockId o := by
          simp only [compensated, Bool.and_eq_true, beq_iff_eq, List.contains_iff_mem]
          exact ⟨⟨⟨hcov.1.symm.trans hcreator, hcov.2.2⟩, hcov.2.1.symm.trans hlock⟩, hs⟩
        rw [this] at hkept
        cases hkept
      · exact .inl ⟨j, List.mem_filter.2 ⟨hj, by simp [hk]⟩, hcov⟩
    · exact .inr h

/-! ## The phases that hold paths -/

theorem publishInvariant_reserving (hc : s.calls[i]? = some c)
    (hp : c.phase = .reserving lock lockId) (hr : ∀ e, r ≠ .lost e)
    (h : s.stores.operate r (s.stores.tables.withOwnership (reservePaths
      s.stores.tables.ownership c.requested.creator c.guardedPaths lockId))
      (answered fun _ => .beginning true lock lockId) = (stores, phase)) :
    PublishInvariant E (s.setPhase i c stores phase) := by
  have hknows := hinv.knows c (List.mem_of_getElem? hc)
  have hnone : c.phase.held? = none := by rw [hp]; rfl
  simp only [Knows, hp] at hknows
  cases r with
  | lost e => exact absurd rfl (hr e)
  | fails e =>
    cases h
    exact publishInvariant_read hinv hc hnone trivial
  | runs =>
    cases hrows : reservePaths s.stores.tables.ownership c.requested.creator
        c.guardedPaths lockId with
    | error e =>
      rw [hrows] at h
      cases h
      exact publishInvariant_read hinv hc hnone trivial
    | ok rows =>
      rw [hrows] at h
      cases h
      refine publishInvariant_setPhase hinv hc (fun _ _ h => h) (fun o ho hs => ?_) hinv.written
        hinv.keys hinv.inFlight ⟨hknows.2, fun _ => hknows.1, by rintro ⟨⟩⟩
      rcases (reserves_of_reservePaths hrows).new o ho with hold | ⟨hcr, hl, hpath, -⟩
      · refine .inr (.inr ⟨hold, fun h => h, fun hholds => ?_⟩)
        rw [hholds.1] at hnone
        cases hnone
      · exact .inr (.inl ⟨congrArg some hl.symm, hcr.symm, hpath⟩)

theorem publishInvariant_unbegun (hc : s.calls[i]? = some c)
    (hp : c.phase = .beginning newly lock lockId) (e : ApplicationError) :
    PublishInvariant E (s.setPhase i c s.stores
      (if newly then .compensatingPaths lockId e else .finished (.error e))) := by
  cases newly with
  | false => exact publishInvariant_read hinv hc (by rw [hp]; rfl) trivial
  | true =>
    refine publishInvariant_setPhase hinv hc (fun _ _ h => h) (fun o ho _ => ?_) hinv.written
      hinv.keys hinv.inFlight trivial
    by_cases hholds : c.Holds o
    · refine .inr (.inl ⟨?_, hholds.2⟩)
      have hheld := hholds.1
      rw [hp] at hheld
      exact hheld
    · exact .inr (.inr ⟨ho, fun h => h, hholds⟩)

end

theorem PublicationTables.beginPublication_eq_ok {t' : PublicationTables} {a : Unit}
    (h : t.beginPublication E creator lockId token lock = .ok (a, t')) :
    t' = { t with intents := ⟨creator, lockId, token, lock.readBack E, false⟩ :: t.intents } ∧
      (creator, lockId) ∉ t.intents.map PublicationIntent.key := by
  unfold beginPublication at h
  split at h
  · cases h
  · split at h
    · cases h
    · split at h
      · cases h
      · rename_i hfree
        cases h
        refine ⟨rfl, fun hmem => hfree ?_⟩
        obtain ⟨i, hi, hkey⟩ := List.mem_map.1 hmem
        obtain ⟨hcr, hl⟩ := Prod.mk.inj hkey
        exact List.any_eq_true.2 ⟨i, hi, by simp [hcr, hl]⟩

section
variable (hinv : PublishInvariant E s) (hc : s.calls[i]? = some c)
include hinv hc

theorem publishInvariant_begun (hp : c.phase = .beginning newly lock lockId) {a : Unit}
    (hop : s.stores.tables.beginPublication E c.requested.creator lockId token lock = .ok (a, t))
    (hknows : Knows E { s.stores with tables := t } c.requested phase) :
    PublishInvariant E (s.setPhase i c { s.stores with tables := t } phase) := by
  have hlock := hinv.knows c (List.mem_of_getElem? hc)
  simp only [Knows, hp] at hlock
  obtain ⟨rfl, hfree⟩ := beginPublication_eq_ok hop
  refine publishInvariant_setPhase hinv hc (fun _ _ h => h) (fun o ho _ => ?_) ?_ ?_ hinv.inFlight
    hknows
  · by_cases hholds : c.Holds o
    · obtain ⟨hheld, hcr, hpath⟩ := hholds
      rw [hp] at hheld
      cases newly with
      | false => cases hheld
      | true =>
        refine .inl (.inl ⟨_, List.mem_cons_self, hcr, Option.some.inj hheld, ?_⟩)
        show o.guardedPath ∈ publicationGuardedPaths lock
        rw [hlock.2.1 rfl]
        exact hpath
    · refine .inr (.inr ⟨ho, ?_, hholds⟩)
      rintro (⟨j, hj, hcov⟩ | h)
      · exact .inl ⟨j, List.mem_cons_of_mem _ hj, hcov⟩
      · exact .inr h
  · rintro j hj hw
    rcases List.mem_cons.1 hj with rfl | hj
    · cases hw
    · exact hinv.written j hj hw
  · rw [List.map_cons, List.nodup_cons]
    exact ⟨hfree, hinv.keys⟩

theorem publishInvariant_beginning
    (hp : c.phase = .beginning newly lock lockId) (r : OperationResult)
    {next : Except ApplicationError Unit → CreatePhase}
    (hok : next (.ok ()) = .writing newly lock lockId token)
    (herror : ∀ e, next (.error e) =
      if newly then .compensatingPaths lockId e else .finished (.error e))
    (h : s.stores.operate r (s.stores.tables.beginPublication E c.requested.creator lockId token
      lock) next = (stores, phase)) :
    PublishInvariant E (s.setPhase i c stores phase) := by
  have hlock := hinv.knows c (List.mem_of_getElem? hc)
  simp only [Knows, hp] at hlock
  cases hop : s.stores.tables.beginPublication E c.requested.creator lockId token lock with
  | error e =>
    rw [hop] at h
    obtain ⟨e', h⟩ : ∃ e', (s.stores, next (.error e')) = (stores, phase) := by
      cases r <;> exact ⟨_, h⟩
    cases h
    rw [herror]
    exact publishInvariant_unbegun hinv hc hp e'
  | ok p =>
    obtain ⟨⟨⟩, t⟩ := p
    rw [hop] at h
    cases r with
    | runs =>
      cases h
      show PublishInvariant E (s.setPhase i c { s.stores with tables := t } (next (.ok ())))
      rw [hok]
      exact publishInvariant_begun hinv hc hp hop hlock
    | fails e =>
      cases h
      show PublishInvariant E (s.setPhase i c s.stores (next (.error e)))
      rw [herror]
      exact publishInvariant_unbegun hinv hc hp e
    | lost e =>
      cases h
      show PublishInvariant E (s.setPhase i c { s.stores with tables := t } (next (.error e)))
      rw [herror]
      refine publishInvariant_begun hinv hc hp hop ?_
      cases newly <;> trivial

theorem publishInvariant_compensatingPaths {error : ApplicationError}
    (hp : c.phase = .compensatingPaths lockId error)
    (hr : ∀ e, r ≠ .fails e)
    (h : s.stores.operate r (s.stores.tables.withOwnership (.ok
      (compensateReservedPaths s.stores.tables.ownership c.requested.creator
        c.guardedPaths lockId))) (fun _ => .finished (.error error)) = (stores, phase)) :
    PublishInvariant E (s.setPhase i c stores phase) := by
  have hafter : ({ s.stores with tables := { s.stores.tables with
      ownership := compensateReservedPaths s.stores.tables.ownership
        c.requested.creator c.guardedPaths lockId } }, finished (.error error)) =
      (stores, phase) := by
    cases r with
    | fails e => exact absurd rfl (hr e)
    | runs => exact h
    | lost e => exact h
  cases hafter
  refine publishInvariant_setPhase hinv hc (fun _ _ h => h) (fun o ho hs => ?_) hinv.written
    hinv.keys hinv.inFlight trivial
  obtain ⟨hold, hkept⟩ := List.mem_filter.1 ho
  refine .inr (.inr ⟨hold, fun h => h, ?_⟩)
  rintro ⟨hheld, hcr, hpath⟩
  rw [hp] at hheld
  have hgone : compensated c.requested.creator c.guardedPaths lockId o := by
    simp only [compensated, Bool.and_eq_true, beq_iff_eq, List.contains_iff_mem]
    exact ⟨⟨⟨hcr.symm, hpath⟩, (Option.some.inj hheld).symm⟩, hs⟩
  rw [hgone] at hkept
  cases hkept

end

/-! ## Steps -/

theorem PublishStores.HasLock.write (hw : w.lock.lockId E = .ok w.lockId)
    (h : stores.HasLock E creator lockId) : (stores.write w).HasLock E creator lockId := by
  by_cases hkey : creator = w.creator ∧ lockId = w.lockId
  · refine ⟨w.lock, if_pos hkey, ?_⟩
    rw [hkey.2]
    exact hw
  · obtain ⟨lock, hlock, hid⟩ := h
    exact ⟨lock, (if_neg hkey).trans hlock, hid⟩

theorem PublishStores.hasLock_write (stores : PublishStores)
    (hw : w.lock.lockId E = .ok w.lockId) : (stores.write w).HasLock E w.creator w.lockId :=
  ⟨w.lock, if_pos ⟨rfl, rfl⟩, hw⟩

theorem PublishStores.Safe.write
    (hw : w.lock.lockId E = .ok w.lockId) {o : ContentLockOwnership} (h : stores.Safe E o) :
    (stores.write w).Safe E o :=
  h.imp id (PublishStores.HasLock.write hw)

section
variable (hinv : PublishInvariant E s)
include hinv

theorem publishInvariant_writing (hc : s.calls[i]? = some c)
    (hp : c.phase = .writing newly lock lockId token) (r : OperationResult) (fresh : Uuid)
    (h : c.advance E s.stores r fresh = some (stores, phase)) :
    PublishInvariant E (s.setPhase i c stores phase) := by
  have hknows := hinv.knows c (List.mem_of_getElem? hc)
  have hnone : c.phase.held? = none := by rw [hp]; rfl
  simp only [Knows, hp] at hknows
  simp only [advance, hp] at h
  cases r with
  | runs =>
    cases h
    refine publishInvariant_setPhase hinv hc (fun _ _ => .write hknows.1) (fun o ho _ => ?_)
      (fun j hj hw => (hinv.written j hj hw).write hknows.1) hinv.keys hinv.inFlight
      (s.stores.hasLock_write hknows.1)
    refine .inr (.inr ⟨ho, .write hknows.1, fun hholds => ?_⟩)
    rw [hholds.1] at hnone
    cases hnone
  | fails e =>
    cases h
    refine publishInvariant_read hinv hc hnone ?_
    cases newly with
    | false => exact hknows.2.2 rfl
    | true => trivial
  | lost e =>
    cases h
    refine publishInvariant_setPhase hinv hc (fun _ _ h => h) (fun o ho _ => ?_) hinv.written
      hinv.keys (List.forall_mem_cons.2 ⟨hknows.1, hinv.inFlight⟩) trivial
    refine .inr (.inr ⟨ho, fun h => h, fun hholds => ?_⟩)
    rw [hholds.1] at hnone
    cases hnone

/-- **One operation of a call** keeps the reservations covered, if it meets the
    condition. -/
theorem publishInvariant_advance (hc : s.calls[i]? = some c)
    (hsafe : publishSafe s (.advance i r token))
    (h : c.advance E s.stores r token = some (stores, phase)) :
    PublishInvariant E (s.setPhase i c stores phase) := by
  have hknows := hinv.knows c (List.mem_of_getElem? hc)
  simp only [publishSafe, hc, Option.all_some] at hsafe
  have herror : ∀ e, Knows E s.stores c.requested (.finished (.error e)) :=
    fun _ => trivial
  have hfree : ∀ lockId, c.requested.lockId E = .ok lockId →
      Knows E s.stores c.requested (.reserving c.requested lockId) :=
    fun _ hid => ⟨rfl, hid⟩
  obtain ⟨requested, before⟩ := c
  cases before with
  | readingOwnership seen =>
    cases h
    refine publishInvariant_read hinv hc rfl ?_
    refine answered_cases herror fun t _ => ?_
    refine readPath_cases (fun _ _ => trivial) fun l _ _ => ?_
    exact afterOwnership_cases herror (fun _ => hfree) fun _ _ => trivial
  | recovering ownership lockId =>
    cases h
    refine publishInvariant_read hinv hc rfl ?_
    refine answered_cases herror fun a _ => ?_
    exact afterRecovery_cases herror trivial fun _ _ _ => trivial
  | rereadingOwnership ownership lockId seen =>
    cases h
    refine publishInvariant_read hinv hc rfl ?_
    refine answered_cases herror fun t _ => ?_
    refine readPath_cases (fun _ _ => trivial) fun l _ _ => ?_
    exact afterReread_cases herror (fun _ => hfree) trivial
  | readingWritten status lockId original =>
    cases h
    refine publishInvariant_read hinv hc rfl ?_
    refine answered_cases herror fun a _ => ?_
    exact afterReadWritten_cases herror fun _ => trivial
  | readingPublished status lockId =>
    cases h
    refine publishInvariant_read hinv hc rfl ?_
    refine answered_cases herror fun a ha => ?_
    refine afterReadPublished_cases herror fun existing hexisting hid _ => ?_
    have hpublished := Except.ok.inj (OperationResult.read_eq_ok ha)
    exact ⟨hid, existing, hpublished.trans hexisting, hid⟩
  | recoveringAgain status lock lockId =>
    cases h
    refine publishInvariant_read hinv hc rfl ?_
    refine answered_cases herror fun a _ => ?_
    refine afterSecondRecovery_cases herror (fun _ => trivial) ?_ fun _ _ _ => trivial
    exact ⟨hknows.1, (by rintro ⟨⟩), fun _ => hknows.2⟩
  | reconcilingRecovered status lock lockId =>
    refine publishInvariant_operate hinv hc rfl (fun _ _ => keeps_reconcile hinv)
      (fun a => ?_) (Option.some.inj h)
    refine answered_cases herror fun b _ => ?_
    refine afterReconcile_cases herror ?_
    split <;> trivial
  | reserving lock lockId =>
    refine publishInvariant_reserving hinv hc rfl ?_ (Option.some.inj h)
    rintro e rfl
    cases hsafe
  | beginning newly lock lockId =>
    exact publishInvariant_beginning hinv hc rfl r rfl (fun e => rfl) (Option.some.inj h)
  | compensatingPaths lockId error =>
    refine publishInvariant_compensatingPaths hinv hc rfl ?_ (Option.some.inj h)
    rintro e rfl
    cases hsafe
  | writing newly lock lockId k => exact publishInvariant_writing hinv hc rfl r token h
  | abandoning lockId k error attempts =>
    refine publishInvariant_operate hinv hc rfl
      (fun _ _ => keeps_abandon hinv hknows) (fun a => ?_) (Option.some.inj h)
    exact retried_cases herror (fun _ => hknows) fun _ => trivial
  | compensating lockId k error attempts =>
    refine publishInvariant_operate hinv hc rfl (fun _ _ => keeps_compensate hinv)
      (fun a => ?_) (Option.some.inj h)
    exact retried_cases herror (fun _ => trivial) fun _ => trivial
  | markingWritten lock lockId k attempts =>
    refine publishInvariant_operate hinv hc rfl
      (fun _ _ => keeps_markWritten hinv hknows) (fun a => ?_) (Option.some.inj h)
    refine retried_cases herror (fun _ => hknows) fun committed => ?_
    cases committed <;> trivial
  | reconciling lock lockId =>
    refine publishInvariant_operate hinv hc rfl (fun _ _ => keeps_reconcile hinv)
      (fun a => ?_) (Option.some.inj h)
    refine answered_cases herror fun b _ => ?_
    exact afterReconcile_cases herror trivial
  | markingPublished lock lockId =>
    refine publishInvariant_operate hinv hc rfl
      (fun _ _ => keeps_markPublished hinv) (fun a => ?_) (Option.some.inj h)
    exact answered_cases herror fun _ _ => trivial
  | finished result =>
    cases h
  | stopped =>
    cases h

theorem publishInvariant_call {d : CreateCall} (hknows : Knows E s.stores d.requested d.phase) :
    PublishInvariant E { s with calls := s.calls ++ [d] } where
  reserved := by
    intro o ho hs
    rcases hinv.reserved o ho hs with h | ⟨j, b, hb, hholds⟩
    · exact .inl h
    · exact .inr ⟨j, b, List.getElem?_append_left (List.getElem?_eq_some_iff.1 hb).1 ▸ hb, hholds⟩
  written := hinv.written
  keys := hinv.keys
  inFlight := hinv.inFlight
  knows := by
    intro b hb
    rcases List.mem_append.1 hb with hb | hb
    · exact hinv.knows b hb
    · rw [List.mem_singleton.1 hb]
      exact hknows

theorem publishInvariant_land {k : ℕ} (hw : s.stores.inFlight[k]? = some w) :
    PublishInvariant E { s with
      stores := { s.stores.write w with inFlight := s.stores.inFlight.eraseIdx k } } := by
  have hid := hinv.inFlight w (List.mem_of_getElem? hw)
  refine ⟨fun o ho hs => ?_, fun j hj h => (hinv.written j hj h).write hid, hinv.keys,
    fun v hv => hinv.inFlight v (List.mem_of_mem_eraseIdx hv), fun d hd => ?_⟩
  · exact (hinv.reserved o ho hs).imp (.write hid) id
  · exact (hinv.knows d hd).mono fun _ _ => .write hid

end

/-- **Every event** that meets the condition keeps the reservations covered. -/
theorem publishInvariant_exec {C : Codec} {e : PublishEvent} {s' : PublishState}
    (hinv : PublishInvariant E s) (hsafe : publishSafe s e) (h : s.exec C E e = some s') :
    PublishInvariant E s' := by
  cases e with
  | call request resources now =>
    cases h
    refine publishInvariant_call hinv ?_
    unfold PublishState.start
    cases request.validated C E resources now <;> trivial
  | advance i r token =>
    simp only [PublishState.exec, Option.bind_eq_some_iff, Option.map_eq_some_iff] at h
    obtain ⟨c, hc, ⟨stores, phase⟩, hadv, rfl⟩ := h
    exact publishInvariant_advance hinv hc hsafe hadv
  | stop i =>
    simp only [PublishState.exec, Option.bind_eq_some_iff] at h
    obtain ⟨c, hc, h⟩ := h
    simp only [publishSafe, hc, Option.all_some, Option.isNone_iff_eq_none] at hsafe
    split at h
    · cases h
    · cases h
      exact publishInvariant_read hinv hc hsafe trivial
  | land k =>
    simp only [PublishState.exec, Option.map_eq_some_iff] at h
    obtain ⟨w, hw, rfl⟩ := h
    exact publishInvariant_land hinv hw

end PubkyLocks
