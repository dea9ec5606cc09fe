/-
  Locks that have reached the homeserver, along every run of
  `CreateContentLock::execute` beside deletions of locks.

  A call that has reserved the paths of a lock is the only one that may release
  them again, as long as it has not written the lock.  Once a write of the lock
  may have reached the homeserver, its paths keep their rows, and what is written
  for its id is that lock.
-/
import PubkyLocks.Publishing.CarriedLocks

namespace PubkyLocks

open CreateCall PublicationTables PublishState CreatePhase PublishStores OperationResult Ownership

/-! ## Deletions beside publications -/

/-- One event: of a publication, a deletion job or receipt for a lock, or the
    removal of a lock that is being deleted from the homeserver. -/
inductive LockEvent where
  | call (request : CreateContentLockRequest) (now : Timestamp)
  | advance (i : ℕ) (result : OperationResult) (token : Uuid)
  | stop (i : ℕ)
  | land (k : ℕ)
  | delete (key : IntentKey)
  | withdraw (key : IntentKey)

/-- The homeserver without the lock of a key. -/
def PublishStores.withdraw (s : PublishStores) (key : IntentKey) : PublishStores :=
  { s with
    published := fun creator lockId =>
      if creator = key.creator ∧ lockId = key.lockId then none else s.published creator lockId }

def PublicationTables.delete (t : PublicationTables) (key : IntentKey) : PublicationTables :=
  { t with deletions := key :: t.deletions }

/-- The state after an event; `none` if it is not enabled.  All calls read the same
    guarded resources. -/
def PublishState.execLock (C : Codec) (E : Externals) (resources : GuardedResourceRepository)
    (s : PublishState) : LockEvent → Option PublishState
  | .call request now => s.exec C E (.call request resources now)
  | .advance i result token => s.exec C E (.advance i result token)
  | .stop i => s.exec C E (.stop i)
  | .land k => s.exec C E (.land k)
  | .delete key => some { s with stores := { s.stores with tables := s.stores.tables.delete key } }
  | .withdraw key =>
    if s.stores.tables.deletionExists key.creator key.lockId then
      some { s with stores := s.stores.withdraw key }
    else none

def CreatePhase.token? : CreatePhase → Option Uuid
  | writing _ _ _ token | abandoning _ token _ _ | compensating _ token _ _
  | markingWritten _ _ token _ => some token
  | _ => none

/-- No call and no intent has the token. -/
def PublishState.unused (s : PublishState) (token : Uuid) : Bool :=
  s.calls.all (·.phase.token? != some token) &&
    s.stores.tables.intents.all (·.publicationToken != token)

/-- The token of a new intent is an unused one. -/
def freshToken (s : PublishState) : LockEvent → Bool
  | .advance i _ token => (s.calls[i]?).all fun c => match c.phase with
    | .beginning _ _ _ => s.unused token
    | _ => true
  | _ => true

/-- The runs in which every new token is an unused one. -/
abbrev LockRun (C : Codec) (E : Externals) (resources : GuardedResourceRepository) :=
  Runs.Run (Runs.restrict (Runs.ofExec (execLock C E resources))
    fun s e => freshToken s e)

/-! ## Rows -/

namespace PublicationTables

def HasRows (t : PublicationTables) (lock : ContentLock) (lockId : LockId) : Prop :=
  ∀ p ∈ publicationGuardedPaths lock, ∃ o ∈ t.ownership, o.creator = lock.creator ∧
    o.guardedPath = p ∧ o.lockId = lockId

def HasPublished (t : PublicationTables) (lock : ContentLock) (lockId : LockId) : Prop :=
  ∀ p ∈ publicationGuardedPaths lock, ⟨lock.creator, p, lockId, .published⟩ ∈ t.ownership

/-- What an operation leaves of the rows: it may promote a row, and it removes
    reserved rows of one lock at most. -/
def RowsStep (t t' : PublicationTables) (removed : Option (CreatorPubky × LockId)) : Prop :=
  ∀ o ∈ t.ownership,
    (∃ o' ∈ t'.ownership, key o' = key o ∧ o'.lockId = o.lockId ∧
      (o.status = .published → o'.status = .published)) ∨
    o.status = .reserved ∧ removed = some (o.creator, o.lockId)

variable {t t' : PublicationTables} {lock : ContentLock} {lockId : LockId}
  {removed : Option (CreatorPubky × LockId)}

theorem HasPublished.hasRows (h : t.HasPublished lock lockId) : t.HasRows lock lockId :=
  fun p hp => ⟨_, h p hp, rfl, rfl, rfl⟩

theorem RowsStep.mem (hstep : RowsStep t t' removed) {o : ContentLockOwnership}
    (ho : o ∈ t.ownership) (hs : o.status = .published) : o ∈ t'.ownership := by
  rcases hstep o ho with ⟨o', ho', hkey, hid, hs'⟩ | ⟨hres, -⟩
  · obtain ⟨hc, hpath⟩ := Prod.mk.inj hkey
    have heq : o' = o := by
      cases o
      cases o'
      simp_all
    exact heq ▸ ho'
  · rw [hs] at hres
    cases hres

theorem HasPublished.step (h : t.HasPublished lock lockId) (hstep : RowsStep t t' removed) :
    t'.HasPublished lock lockId :=
  fun p hp => hstep.mem (h p hp) rfl

theorem HasRows.step (h : t.HasRows lock lockId) (hstep : RowsStep t t' removed)
    (hremoved : removed = some (lock.creator, lockId) → t.HasPublished lock lockId) :
    t'.HasRows lock lockId := by
  intro p hp
  obtain ⟨o, ho, hc, hpath, hid⟩ := h p hp
  rcases hstep o ho with ⟨o', ho', hkey, hid', -⟩ | ⟨-, hgone⟩
  · obtain ⟨hc', hpath'⟩ := Prod.mk.inj hkey
    exact ⟨o', ho', hc'.trans hc, hpath'.trans hpath, hid'.trans hid⟩
  · rw [hc, hid] at hgone
    exact ((hremoved hgone).step hstep).hasRows p hp

theorem RowsStep.of_mem (h : ∀ o ∈ t.ownership, o ∈ t'.ownership) : RowsStep t t' removed :=
  fun o ho => .inl ⟨o, h o ho, rfl, rfl, fun hs => hs⟩

theorem RowsStep.promote {creator : CreatorPubky} {paths : List String}
    {rows : List ContentLockOwnership}
    (h : markPathsPublished t.ownership creator paths lockId = .ok rows) :
    RowsStep t { t with ownership := rows } removed := by
  rw [markPathsPublished_eq h]
  intro o ho
  cases hprom : promoted creator paths lockId o with
  | true => exact .inl ⟨_, Table.mem_updateWhere.2 ⟨o, ho, .inl ⟨hprom, rfl⟩⟩, rfl, rfl,
      fun _ => rfl⟩
  | false => exact .inl ⟨o, Table.mem_updateWhere.2 ⟨o, ho, .inr ⟨hprom, rfl⟩⟩, rfl, rfl,
      fun hs => hs⟩

theorem RowsStep.compensate {creator : CreatorPubky} {paths : List String}
    {intents : List PublicationIntent} :
    RowsStep t { t with
      ownership := compensateReservedPaths t.ownership creator paths lockId, intents }
      (some (creator, lockId)) := by
  intro o ho
  cases hgone : compensated creator paths lockId o with
  | true =>
    simp only [compensated, Bool.and_eq_true, beq_iff_eq] at hgone
    obtain ⟨⟨⟨hc, -⟩, hid⟩, hs⟩ := hgone
    exact .inr ⟨hs, by rw [hc, hid]⟩
  | false =>
    exact .inl ⟨o, List.mem_filter.2 ⟨ho, by rw [hgone]; rfl⟩, rfl, rfl, fun hs => hs⟩

end PublicationTables

/-! ## Guards -/

/-- The call may release reserved paths of the lock: it has reserved them, and no
    write of it has been sent. -/
def CreateCall.Keeps (t : PublicationTables) (c : CreateCall) (lockId : LockId) : Prop :=
  match c.phase with
  | .beginning true _ id | .compensatingPaths id _ | .writing true _ id _ => id = lockId
  | .compensating id token _ _ =>
    id = lockId ∧ ∃ i ∈ t.intents, uncompleted c.requested.creator id token i
  | _ => False

def CreatePhase.KeepsNothing (requested : ContentLock) (phase : CreatePhase) : Prop :=
  ∀ t lockId, ¬ Keeps t ⟨requested, phase⟩ lockId

/-- Every path of the lock has a row, and all of them are published if a call, apart
    from one, may release them. -/
def PublishState.Guarded (s : PublishState) (except : Option ℕ) (lock : ContentLock)
    (lockId : LockId) : Prop :=
  s.stores.tables.HasRows lock lockId ∧
    ∀ (j : ℕ) (d : CreateCall), except ≠ some j → s.calls[j]? = some d →
      d.requested.creator = lock.creator → d.Keeps s.stores.tables lockId →
      s.stores.tables.HasPublished lock lockId

/-- A move of a call that takes no paths: it removes rows only of a lock that it
    keeps, and no call keeps more than before. -/
structure CallMoves (s : PublishState) (i : ℕ) (c : CreateCall) (t : PublicationTables)
    (phase : CreatePhase) (removed : Option (CreatorPubky × LockId)) : Prop where
  rows : RowsStep s.stores.tables t removed
  kept : ∀ creator lockId, removed = some (creator, lockId) →
    c.requested.creator = creator ∧ c.Keeps s.stores.tables lockId
  others : ∀ (j : ℕ) (d : CreateCall) (lockId : LockId), j ≠ i → s.calls[j]? = some d →
    d.Keeps t lockId → d.Keeps s.stores.tables lockId
  own : ∀ lockId, Keeps t ⟨c.requested, phase⟩ lockId →
    c.Keeps s.stores.tables lockId ∧ removed ≠ some (c.requested.creator, lockId)

variable {s : PublishState} {i : ℕ} {c : CreateCall} {stores : PublishStores}
  {phase : CreatePhase} {removed : Option (CreatorPubky × LockId)} {lock : ContentLock}
  {lockId : LockId}

theorem PublishState.Guarded.weaken (h : s.Guarded none lock lockId) (except : Option ℕ) :
    s.Guarded except lock lockId :=
  ⟨h.1, fun j d _ hj hc hk => h.2 j d nofun hj hc hk⟩

theorem PublishState.calls_setPhase (hc : s.calls[i]? = some c) {j : ℕ} {d : CreateCall}
    (hd : (s.setPhase i c stores phase).calls[j]? = some d) :
    j = i ∧ d = ⟨c.requested, phase⟩ ∨ j ≠ i ∧ s.calls[j]? = some d := by
  obtain ⟨hlt, -⟩ := List.getElem?_eq_some_iff.1 hc
  by_cases hij : i = j
  · subst hij
    simp only [setPhase, List.getElem?_set_self hlt, Option.some.injEq] at hd
    exact .inl ⟨rfl, hd.symm⟩
  · simp only [setPhase, List.getElem?_set_ne hij] at hd
    exact .inr ⟨Ne.symm hij, hd⟩

/-- **A move** keeps a lock guarded; of the lock of the call itself, apart from it,
    if the call does not remove its rows. -/
theorem PublishState.Guarded.move (hc : s.calls[i]? = some c)
    (hmove : CallMoves s i c stores.tables phase removed) {except : Option ℕ}
    (hexcept : except = some i → removed ≠ some (lock.creator, lockId))
    (h : s.Guarded except lock lockId) :
    (s.setPhase i c stores phase).Guarded except lock lockId := by
  refine ⟨h.1.step hmove.rows fun hremoved => ?_, fun j d hne hd hcreator hkeeps => ?_⟩
  · obtain ⟨hcreator, hkeeps⟩ := hmove.kept _ _ hremoved
    exact h.2 i c (fun he => hexcept he hremoved) hc hcreator hkeeps
  · rcases calls_setPhase hc hd with ⟨rfl, rfl⟩ | ⟨hji, hd⟩
    · exact (h.2 j c hne hc hcreator (hmove.own lockId hkeeps).1).step hmove.rows
    · exact (h.2 j d hne hd hcreator (hmove.others j d lockId hji hd hkeeps)).step hmove.rows

theorem Ownership.Reserves.hasPublished {t t' : PublicationTables}
    (hr : Reserves lock.creator lockId (publicationGuardedPaths lock) t.ownership
      t'.ownership) (hkeys : (t'.ownership.map key).Nodup) (h : t.HasRows lock lockId) :
    t'.HasPublished lock lockId := by
  intro p hp
  obtain ⟨o, ho, hoc, hop, hoid⟩ := h p hp
  obtain ⟨o', ho', hc', hp', hid', hs'⟩ := hr.owned p hp
  have heq : o' = o := List.inj_on_of_nodup_map hkeys ho' (hr.kept o ho)
    (Prod.ext (hc'.trans hoc.symm) (hp'.trans hop.symm))
  subst heq
  have hrow : o' = ⟨lock.creator, p, lockId, .published⟩ := by
    obtain ⟨creator, path, lid, status⟩ := o'
    cases hc'
    cases hp'
    cases hid'
    cases hs' ho
    rfl
  exact hrow ▸ ho'

/-- **A reservation** keeps a lock guarded: if the rows of the reserved lock were
    there before, they are published. -/
theorem PublishState.Guarded.reserve (stores : PublishStores) (hc : s.calls[i]? = some c)
    (hkeys : (stores.tables.ownership.map key).Nodup)
    (hr : Reserves c.requested.creator lockId c.guardedPaths s.stores.tables.ownership
      stores.tables.ownership) (hintents : stores.tables.intents = s.stores.tables.intents)
    {id : LockId} (hsame : lock.creator = c.requested.creator → id = lockId → lock = c.requested)
    {newly : Bool} {reserved : ContentLock} {except : Option ℕ}
    (h : s.Guarded except lock id) :
    (s.setPhase i c stores (.beginning newly reserved lockId)).Guarded except lock id := by
  have hstep : RowsStep s.stores.tables stores.tables none := .of_mem hr.kept
  refine ⟨h.1.step hstep nofun, fun j d hne hd hcreator hkeeps => ?_⟩
  rcases calls_setPhase hc hd with ⟨rfl, rfl⟩ | ⟨-, hd⟩
  · -- the call keeps the lock it has reserved
    cases newly with
    | false => exact hkeeps.elim
    | true =>
      obtain rfl : lockId = id := hkeeps
      obtain rfl := hsame hcreator.symm rfl
      exact hr.hasPublished hkeys h.1
  · refine (h.2 j d hne hd hcreator ?_).step hstep
    unfold Keeps at hkeeps ⊢
    rw [← hintents]
    exact hkeeps

/-! ## What calls know -/

/-- The rows that a call has read are rows of its paths, in their order; those that
    were published still are. -/
def PublicationTables.HasRead (t : PublicationTables) (requested : ContentLock)
    (seen : List (Option ContentLockOwnership)) : Prop :=
  ∀ (k : ℕ) (o : ContentLockOwnership), seen[k]? = some (some o) →
    o.creator = requested.creator ∧ (publicationGuardedPaths requested)[k]? = some o.guardedPath ∧
      (o.status = .published → o ∈ t.ownership)

/-- The lock is one of the run, is guarded, and is on the homeserver unless it is
    being deleted. -/
structure PublishState.Seen (E : Externals) (P : ContentLock → Prop) (s : PublishState)
    (lock : ContentLock) (lockId : LockId) : Prop where
  ofRun : P lock
  id : lock.lockId E = .ok lockId
  guarded : s.Guarded none lock lockId
  published : s.stores.tables.deletionExists lock.creator lockId = false →
    s.stores.published lock.creator lockId = some lock

/-- What a call knows in a phase. -/
def CreatePhase.Facts (E : Externals) (P : ContentLock → Prop) (s : PublishState)
    (requested : ContentLock) : CreatePhase → Prop
  | readingOwnership seen => s.stores.tables.HasRead requested seen
  | recovering ownership lockId | rereadingOwnership ownership lockId _ =>
    allStatus .published ownership → s.stores.tables.HasPublished requested lockId
  | readingWritten status lockId lock =>
    P lock ∧ lock.lockId E = .ok lockId ∧
      (status = .published → s.stores.tables.HasPublished requested lockId)
  | readingPublished status lockId =>
    status = .published → s.stores.tables.HasPublished requested lockId
  | recoveringAgain status lock lockId | reconcilingRecovered status lock lockId =>
    s.Seen E P lock lockId ∧
      (status = .published → s.stores.tables.HasPublished requested lockId)
  | reserving lock lockId => lock = requested ∧ requested.lockId E = .ok lockId
  | beginning newly lock lockId | writing newly lock lockId _ =>
    (newly = true → lock = requested ∧ requested.lockId E = .ok lockId) ∧
      (newly = false → s.Seen E P lock lockId)
  | compensatingPaths lockId _ | compensating lockId _ _ _ => requested.lockId E = .ok lockId
  | markingWritten lock lockId _ _ | reconciling lock lockId | markingPublished lock lockId =>
    s.Seen E P lock lockId
  | finished (.ok created) => s.Seen E P created.contentLock created.lockId ∧
      s.stores.tables.HasPublished created.contentLock created.lockId
  | abandoning _ _ _ _ | finished (.error _) | stopped => True

/-- Rows and intents of locks of the run, with one intent at most for a lock. -/
structure LandedTables (E : Externals) (P : ContentLock → Prop) (t : PublicationTables) : Prop
    extends TablesOf E P P t where
  keys : (t.intents.map PublicationIntent.key).Nodup

/-- Every lock that is on the homeserver, or may still land there, is guarded; a
    call that may release paths is the only one, unless they are published; and
    the calls know what they have read. -/
structure LandedInvariant (E : Externals) (P : ContentLock → Prop) (s : PublishState) : Prop where
  tables : LandedTables E P s.stores.tables
  published : ∀ creator lockId lock, s.stores.published creator lockId = some lock →
    P lock ∧ lock.creator = creator ∧ lock.lockId E = .ok lockId ∧ s.Guarded none lock lockId
  inFlight : ∀ w ∈ s.stores.inFlight, P w.lock ∧ w.lock.creator = w.creator ∧
    w.lock.lockId E = .ok w.lockId ∧ s.Guarded none w.lock w.lockId
  same : ∀ c ∈ s.calls, c.Same
  requested : ∀ c ∈ s.calls, P c.requested
  keeps : ∀ (i : ℕ) (c : CreateCall) (lockId : LockId), s.calls[i]? = some c →
    c.Keeps s.stores.tables lockId → s.Guarded (some i) c.requested lockId
  facts : ∀ c ∈ s.calls, Facts E P s c.requested c.phase

/-- What a step keeps: published rows, guarded locks, and the locks on the
    homeserver that are not being deleted. -/
structure LandedKept (E : Externals) (P : ContentLock → Prop) (s s' : PublishState) : Prop where
  rows : ∀ o ∈ s.stores.tables.ownership, o.status = .published → o ∈ s'.stores.tables.ownership
  guarded : ∀ lock lockId, P lock → lock.lockId E = .ok lockId → s.Guarded none lock lockId →
    s'.Guarded none lock lockId
  published : ∀ lock lockId, P lock → lock.lockId E = .ok lockId →
    s'.stores.tables.deletionExists lock.creator lockId = false →
    s.stores.tables.deletionExists lock.creator lockId = false ∧
      (s.stores.published lock.creator lockId = some lock →
        s'.stores.published lock.creator lockId = some lock)

/-- The invariant holds after a step, and the step keeps what it has to. -/
structure LandedStep (E : Externals) (P : ContentLock → Prop) (s s' : PublishState) : Prop where
  inv : LandedInvariant E P s'
  evolves : LandedKept E P s s'

variable {E : Externals} {P : ContentLock → Prop} {s' : PublishState} {requested : ContentLock}

theorem LandedKept.refl (s : PublishState) : LandedKept E P s s :=
  ⟨fun _ ho _ => ho, fun _ _ _ _ h => h, fun _ _ _ _ hdel => ⟨hdel, fun h => h⟩⟩

theorem LandedKept.trans {s'' : PublishState} (h : LandedKept E P s s')
    (h' : LandedKept E P s' s'') :
    LandedKept E P s s'' where
  rows := fun o ho hs => h'.rows o (h.rows o ho hs) hs
  guarded := fun lock lockId hP hid hg =>
    h'.guarded lock lockId hP hid (h.guarded lock lockId hP hid hg)
  published := by
    intro lock lockId hP hid hdel
    obtain ⟨hdel', hkept'⟩ := h'.published lock lockId hP hid hdel
    obtain ⟨hdel, hkept⟩ := h.published lock lockId hP hid hdel'
    exact ⟨hdel, fun hl => hkept' (hkept hl)⟩

theorem PublicationTables.HasPublished.evolve {lock : ContentLock} {lockId : LockId}
    (h : s.stores.tables.HasPublished lock lockId) (he : LandedKept E P s s') :
    s'.stores.tables.HasPublished lock lockId :=
  fun p hp => he.rows _ (h p hp) rfl

theorem PublishState.Seen.evolve (h : s.Seen E P lock lockId) (he : LandedKept E P s s') :
    s'.Seen E P lock lockId where
  ofRun := h.ofRun
  id := h.id
  guarded := he.guarded lock lockId h.ofRun h.id h.guarded
  published := by
    intro hdel
    obtain ⟨hdel', hkept⟩ := he.published lock lockId h.ofRun h.id hdel
    exact hkept (h.published hdel')

theorem CreatePhase.Facts.evolve (h : Facts E P s requested phase)
    (he : LandedKept E P s s') : Facts E P s' requested phase := by
  cases phase with
  | readingOwnership seen =>
    intro k o hk
    obtain ⟨hc, hp, hrow⟩ := h k o hk
    exact ⟨hc, hp, fun hs => he.rows o (hrow hs) hs⟩
  | recovering ownership lockId => exact fun hall => (h hall).evolve he
  | rereadingOwnership ownership lockId seen => exact fun hall => (h hall).evolve he
  | readingWritten status lockId lock => exact ⟨h.1, h.2.1, fun hs => (h.2.2 hs).evolve he⟩
  | readingPublished status lockId => exact fun hs => (h hs).evolve he
  | recoveringAgain status lock lockId => exact ⟨h.1.evolve he, fun hs => (h.2 hs).evolve he⟩
  | reconcilingRecovered status lock lockId => exact ⟨h.1.evolve he, fun hs => (h.2 hs).evolve he⟩
  | beginning newly lock lockId => exact ⟨h.1, fun hn => (h.2 hn).evolve he⟩
  | writing newly lock lockId token => exact ⟨h.1, fun hn => (h.2 hn).evolve he⟩
  | markingWritten lock lockId token attempts => exact Seen.evolve h he
  | reconciling lock lockId => exact Seen.evolve h he
  | markingPublished lock lockId => exact Seen.evolve h he
  | finished result =>
    cases result with
    | ok created => exact ⟨h.1.evolve he, h.2.evolve he⟩
    | error e => trivial
  | _ => exact h

/-! ## Moves -/

theorem landedStep_setPhase (hinv : LandedInvariant E P s) (hc : s.calls[i]? = some c)
    (htables : LandedTables E P stores.tables)
    (he : LandedKept E P s (s.setPhase i c stores phase))
    (hpublished : ∀ creator lockId lock, stores.published creator lockId = some lock →
      s.stores.published creator lockId = some lock ∨
        P lock ∧ lock.creator = creator ∧ lock.lockId E = .ok lockId ∧
          (s.setPhase i c stores phase).Guarded none lock lockId)
    (hinFlight : ∀ w ∈ stores.inFlight, w ∈ s.stores.inFlight ∨
      P w.lock ∧ w.lock.creator = w.creator ∧ w.lock.lockId E = .ok w.lockId ∧
        (s.setPhase i c stores phase).Guarded none w.lock w.lockId)
    (hkeeps : ∀ lockId, Keeps stores.tables ⟨c.requested, phase⟩ lockId →
      (s.setPhase i c stores phase).Guarded (some i) c.requested lockId)
    (hothers : ∀ (j : ℕ) (d : CreateCall) (lockId : LockId), j ≠ i → s.calls[j]? = some d →
      d.Keeps stores.tables lockId →
      (s.setPhase i c stores phase).Guarded (some j) d.requested lockId)
    (hsame : Same c.requested phase)
    (hfacts : Facts E P (s.setPhase i c stores phase) c.requested phase) :
    LandedStep E P s (s.setPhase i c stores phase) := by
  refine ⟨⟨htables, fun creator lockId lock h => ?_, fun w hw => ?_, fun d hd => ?_, fun d hd => ?_,
    fun j d lockId hd hk => ?_, fun d hd => ?_⟩, he⟩
  · rcases hpublished creator lockId lock h with hold | hnew
    · obtain ⟨hP, hcreator, hid, hg⟩ := hinv.published creator lockId lock hold
      exact ⟨hP, hcreator, hid, he.guarded lock lockId hP hid hg⟩
    · exact hnew
  · rcases hinFlight w hw with hold | hnew
    · obtain ⟨hP, hcreator, hid, hg⟩ := hinv.inFlight w hold
      exact ⟨hP, hcreator, hid, he.guarded w.lock w.lockId hP hid hg⟩
    · exact hnew
  · rcases List.mem_or_eq_of_mem_set hd with hd | rfl
    · exact hinv.same d hd
    · exact hsame
  · rcases List.mem_or_eq_of_mem_set hd with hd | rfl
    · exact hinv.requested d hd
    · exact hinv.requested c (List.mem_of_getElem? hc)
  · rcases calls_setPhase hc hd with ⟨rfl, rfl⟩ | ⟨hji, hd⟩
    · exact hkeeps lockId hk
    · exact hothers j d lockId hji hd hk
  · rcases List.mem_or_eq_of_mem_set hd with hd | rfl
    · exact (hinv.facts d hd).evolve he
    · exact hfacts

theorem evolves_of_moves (hc : s.calls[i]? = some c)
    (hmove : CallMoves s i c stores.tables phase removed)
    (hdel : stores.tables.deletions = s.stores.tables.deletions)
    (hpublished : ∀ lock lockId, P lock → lock.lockId E = .ok lockId →
      s.stores.published lock.creator lockId = some lock →
      stores.published lock.creator lockId = some lock) :
    LandedKept E P s (s.setPhase i c stores phase) where
  rows := fun _ ho hs => hmove.rows.mem ho hs
  guarded := fun lock lockId _ _ h => h.move hc hmove nofun
  published := by
    intro lock lockId hP hid hno
    refine ⟨?_, hpublished lock lockId hP hid⟩
    rw [← hno]
    simp only [deletionExists, setPhase, hdel]

theorem landedStep_move (hinv : LandedInvariant E P s) (hc : s.calls[i]? = some c)
    {t : PublicationTables} (htables : LandedTables E P t)
    (hdel : t.deletions = s.stores.tables.deletions) (hmove : CallMoves s i c t phase removed)
    (hsame : Same c.requested phase)
    (hfacts : LandedKept E P s (s.setPhase i c { s.stores with tables := t } phase) →
      Facts E P (s.setPhase i c { s.stores with tables := t } phase) c.requested
        phase) :
    LandedStep E P s (s.setPhase i c { s.stores with tables := t } phase) := by
  have he : LandedKept E P s (s.setPhase i c { s.stores with tables := t } phase) :=
    evolves_of_moves hc hmove hdel fun _ _ _ _ h => h
  refine landedStep_setPhase hinv hc htables he (fun _ _ _ h => .inl h) (fun _ h => .inl h)
    (fun lockId hk => ?_) (fun j d lockId hji hd hk => ?_) hsame (hfacts he)
  · obtain ⟨hkeeps, hremoved⟩ := hmove.own lockId hk
    exact Guarded.move hc hmove (fun _ => hremoved) (hinv.keeps i c lockId hc hkeeps)
  · have hkeeps := hmove.others j d lockId hji hd hk
    exact Guarded.move hc hmove (fun hi => absurd (Option.some.inj hi) hji)
      (hinv.keeps j d lockId hd hkeeps)

theorem CreateCall.Keeps.of_intents {t t' : PublicationTables} {d : CreateCall} {lockId : LockId}
    (h : d.Keeps t' lockId)
    (hintents : ∀ creator id token, (∃ i ∈ t'.intents,
        uncompleted creator id token i) →
      ∃ i ∈ t.intents, uncompleted creator id token i) : d.Keeps t lockId := by
  unfold Keeps at h ⊢
  split at h
  · exact h
  · exact h
  · exact h
  · exact ⟨h.1, hintents _ _ _ h.2⟩
  · exact h.elim

theorem landedStep_read (hinv : LandedInvariant E P s) (hc : s.calls[i]? = some c)
    (hown : ∀ lockId, Keeps s.stores.tables ⟨c.requested, phase⟩ lockId →
      c.Keeps s.stores.tables lockId) (hsame : Same c.requested phase)
    (hfacts : LandedKept E P s (s.setPhase i c s.stores phase) →
      Facts E P (s.setPhase i c s.stores phase) c.requested phase) :
    LandedStep E P s (s.setPhase i c s.stores phase) := by
  have hmove : CallMoves s i c s.stores.tables phase none :=
    ⟨.of_mem fun _ ho => ho, nofun, fun _ _ _ _ _ h => h, fun lockId h => ⟨hown lockId h, nofun⟩⟩
  exact landedStep_move hinv hc hinv.tables rfl hmove hsame hfacts

/-! ## Operations -/

/-- The operation removes no row and opens no intent. -/
structure PublicationTables.Quiet (t t' : PublicationTables) : Prop where
  rows : RowsStep t t' none
  intents : ∀ creator id token, (∃ i ∈ t'.intents, uncompleted creator id token i) →
    ∃ i ∈ t.intents, uncompleted creator id token i
  deletions : t'.deletions = t.deletions

namespace PublicationTables

variable {t t' : PublicationTables} {creator : CreatorPubky} {paths : List String} {token : Uuid}

theorem Quiet.refl (t : PublicationTables) : Quiet t t :=
  ⟨.of_mem fun _ h => h, fun _ _ _ h => h, rfl⟩

theorem quiet_filter (p : PublicationIntent → Bool) :
    Quiet t { t with intents := t.intents.filter p } where
  rows := .of_mem fun _ h => h
  intents := fun _ _ _ ⟨i, hi, hu⟩ => ⟨i, List.mem_of_mem_filter hi, hu⟩
  deletions := rfl

theorem quiet_reconcile {a : Bool}
    (h : t.reconcilePublication E creator lockId lock paths = .ok (a, t')) : Quiet t t' := by
  unfold reconcilePublication at h
  split at h
  · cases h
    exact .refl t
  · split at h
    · split at h
      · cases h
        exact quiet_filter _
      · cases h
        exact .refl t
    · cases h
      exact .refl t

theorem quiet_markWritten {a : Bool}
    (h : t.markPublicationWritten creator lockId token = .ok (a, t')) : Quiet t t' := by
  cases h
  refine ⟨.of_mem fun _ h => h, ?_, rfl⟩
  rintro c id k ⟨j, hj, hu⟩
  obtain ⟨i, hi, ⟨-, rfl⟩ | ⟨-, rfl⟩⟩ := Table.mem_updateWhere.1 hj
  · simp [uncompleted] at hu
  · exact ⟨j, hi, hu⟩

theorem quiet_abandon {a : Bool} (h : t.abandonPublication creator lockId token = .ok (a, t')) :
    Quiet t t' := by
  cases h
  exact quiet_filter _

theorem quiet_markPublished {a : Unit}
    (h : t.withOwnership (markPathsPublished t.ownership creator paths lockId) =
      .ok (a, t')) : Quiet t t' := by
  obtain ⟨rows, hrows, h⟩ := Checks.map_eq_ok.1 h
  cases h
  exact ⟨.promote hrows, fun _ _ _ h => h, rfl⟩

end PublicationTables

namespace LandedTables

variable {t t' : PublicationTables} {creator : CreatorPubky} {paths : List String} {token : Uuid}

section
variable (ht : LandedTables E P t)
include ht

theorem withRows {rows : List ContentLockOwnership}
    (h : Uniform E P rows) : LandedTables E P { t with ownership := rows } :=
  ⟨⟨h, ht.intents⟩, ht.keys⟩

theorem reconcile {a : Bool}
    (h : t.reconcilePublication E creator lockId lock paths = .ok (a, t')) :
    LandedTables E P t' := by
  refine ⟨ht.toTablesOf.reconcile h, ?_⟩
  unfold reconcilePublication at h
  split at h
  · cases h
    exact ht.keys
  · split at h
    · split at h
      · cases h
        exact nodup_filter_keys ht.keys
      · cases h
        exact ht.keys
    · cases h
      exact ht.keys

theorem markWritten {a : Bool}
    (h : t.markPublicationWritten creator lockId token = .ok (a, t')) : LandedTables E P t' := by
  refine ⟨ht.toTablesOf.markWritten h, ?_⟩
  cases h
  have hmap : (Table.updateWhere (holdsToken creator lockId token)
      (fun i => { i with written := true }) t.intents).map PublicationIntent.key =
      t.intents.map PublicationIntent.key := Table.map_updateWhere fun _ _ _ => rfl
  rw [hmap]
  exact ht.keys

theorem abandon {a : Bool}
    (h : t.abandonPublication creator lockId token = .ok (a, t')) : LandedTables E P t' := by
  refine ⟨ht.toTablesOf.abandon h, ?_⟩
  cases h
  exact nodup_filter_keys ht.keys

end

theorem compensate (hfree : FaithfulLocks E P) (ht : LandedTables E P t) {a : Bool}
    (h : t.compensatePublication creator lockId token = .ok (a, t')) : LandedTables E P t' := by
  refine ⟨ht.toTablesOf.compensate hfree (fun _ h => h) h, ?_⟩
  unfold compensatePublication at h
  split at h
  · cases h
    exact ht.keys
  · cases h
    exact nodup_filter_keys ht.keys

theorem begin (hfree : FaithfulLocks E P) (ht : LandedTables E P t) {a : Unit} (hlock : P lock)
    (hid : lock.lockId E = .ok lockId) (hcreator : lock.creator = creator)
    (h : t.beginPublication E creator lockId token lock = .ok (a, t')) : LandedTables E P t' := by
  refine ⟨ht.toTablesOf.begin hfree hlock hid hcreator h, ?_⟩
  obtain ⟨rfl, hnew⟩ := beginPublication_eq_ok h
  exact List.nodup_cons.2 ⟨hnew, ht.keys⟩

end LandedTables

theorem OperationResult.apply_cases {α : Type} (r : OperationResult) (t : PublicationTables)
    (op : Except ApplicationError (α × PublicationTables)) :
    (∃ e, r.apply t op = (.error e, t)) ∨ ∃ a t', op = .ok (a, t') ∧
      (r.apply t op = (.ok a, t') ∨ ∃ e, r.apply t op = (.error e, t')) := by
  unfold apply
  split
  · exact .inr ⟨_, _, rfl, .inl rfl⟩
  · exact .inl ⟨_, rfl⟩
  · exact .inl ⟨_, rfl⟩
  · exact .inr ⟨_, _, rfl, .inr ⟨_, rfl⟩⟩
  · exact .inl ⟨_, rfl⟩

variable {r : OperationResult}

theorem landedStep_operate (hinv : LandedInvariant E P s) (hc : s.calls[i]? = some c)
    {α : Type} {op : Except ApplicationError (α × PublicationTables)}
    {next : Except ApplicationError α → CreatePhase} (hsame : Same c.requested phase)
    (htables : ∀ a t, op = .ok (a, t) → LandedTables E P t ∧
      t.deletions = s.stores.tables.deletions)
    (hmove : ∀ a t, op = .ok (a, t) → ∀ answer, (answer = .ok a ∨ ∃ e, answer = .error e) →
      ∃ removed, CallMoves s i c t (next answer) removed)
    (hfail : ∀ e lockId, Keeps s.stores.tables ⟨c.requested, next (.error e)⟩ lockId →
      c.Keeps s.stores.tables lockId)
    (hfacts : ∀ answer s', LandedKept E P s s' → (∀ a, answer = .ok a →
      op = .ok (a, s'.stores.tables)) → Facts E P s' c.requested (next answer))
    (h : s.stores.operate r op next = (stores, phase)) :
    LandedStep E P s (s.setPhase i c stores phase) := by
  cases h
  rcases r.apply_cases s.stores.tables op with ⟨e, happly⟩ | ⟨a, t, hop, happly | ⟨e, happly⟩⟩
  · rw [happly] at hsame ⊢
    exact landedStep_read hinv hc (hfail e) hsame fun he => hfacts _ _ he nofun
  · rw [happly] at hsame ⊢
    obtain ⟨ht, hdel⟩ := htables a t hop
    obtain ⟨removed, hmoves⟩ := hmove a t hop _ (.inl rfl)
    refine landedStep_move hinv hc ht hdel hmoves hsame fun he => hfacts _ _ he ?_
    rintro b ⟨⟩
    exact hop
  · rw [happly] at hsame ⊢
    obtain ⟨ht, hdel⟩ := htables a t hop
    obtain ⟨removed, hmoves⟩ := hmove a t hop _ (.inr ⟨e, rfl⟩)
    exact landedStep_move hinv hc ht hdel hmoves hsame fun he => hfacts _ _ he nofun

theorem landedStep_quiet (hinv : LandedInvariant E P s) (hc : s.calls[i]? = some c)
    {α : Type} {op : Except ApplicationError (α × PublicationTables)}
    {next : Except ApplicationError α → CreatePhase} (hsame : Same c.requested phase)
    (hop : ∀ a t, op = .ok (a, t) → LandedTables E P t ∧ s.stores.tables.Quiet t)
    (hnext : ∀ answer, KeepsNothing c.requested (next answer))
    (hfacts : ∀ answer s', LandedKept E P s s' → (∀ a, answer = .ok a →
      op = .ok (a, s'.stores.tables)) → Facts E P s' c.requested (next answer))
    (h : s.stores.operate r op next = (stores, phase)) :
    LandedStep E P s (s.setPhase i c stores phase) := by
  have hmove : ∀ a t, op = .ok (a, t) → ∀ answer, (answer = .ok a ∨ ∃ e, answer = .error e) →
      ∃ removed, CallMoves s i c t (next answer) removed := by
    intro a t hok answer _
    have hquiet := (hop a t hok).2
    exact ⟨none, hquiet.rows, nofun, fun _ _ _ _ _ hk => hk.of_intents hquiet.intents,
      fun lockId hk => absurd hk (hnext answer t lockId)⟩
  exact landedStep_operate hinv hc hsame
    (fun a t hok => ⟨(hop a t hok).1, (hop a t hok).2.deletions⟩) hmove
    (fun e lockId hk => absurd hk (hnext _ _ lockId)) hfacts h

/-! ## Reads -/

/-- The call comes into the phase without keeping a lock, and knows what the phase
    says of it, in every state that this one evolves to. -/
def CreatePhase.Reached (E : Externals) (P : ContentLock → Prop) (s : PublishState)
    (requested : ContentLock) (phase : CreatePhase) : Prop :=
  KeepsNothing requested phase ∧
    ∀ s', LandedKept E P s s' → Facts E P s' requested phase

theorem CreatePhase.reached_of_facts (hkeeps : KeepsNothing requested phase)
    (h : Facts E P s requested phase) : Reached E P s requested phase :=
  ⟨hkeeps, fun _ he => h.evolve he⟩

theorem reached_error (e : ApplicationError) : Reached E P s requested (.finished (.error e)) :=
  reached_of_facts (fun _ _ h => h) trivial

variable {ownership : List (Option ContentLockOwnership)}

theorem reached_reserving (h : requested.lockId E = .ok lockId) :
    Reached E P s requested (.reserving requested lockId) :=
  reached_of_facts (fun _ _ h => h) ⟨rfl, h⟩

theorem landedStep_reads (hinv : LandedInvariant E P s) (hc : s.calls[i]? = some c)
    (hsame : Same c.requested phase)
    (h : Reached E P s c.requested phase) :
    LandedStep E P s (s.setPhase i c s.stores phase) :=
  landedStep_read hinv hc (fun lockId hk => absurd hk (h.1 _ lockId)) hsame (h.2 _)

theorem hasRead_of_reads {seen l : List (Option ContentLockOwnership)}
    (h : s.stores.tables.HasRead c.requested seen) (hl : c.Reads s.stores.tables seen l) :
    s.stores.tables.HasRead c.requested l := by
  obtain ⟨path, hpath, rfl⟩ := hl
  intro k o hk
  rw [List.getElem?_append] at hk
  split at hk
  · exact h k o hk
  · rename_i hlong
    obtain ⟨hlt, hget⟩ := List.getElem?_eq_some_iff.1 hk
    have hzero : k = seen.length := by
      simp only [List.length_singleton] at hlt
      omega
    subst hzero
    simp only [Nat.sub_self, List.getElem_cons_zero] at hget
    have hfound := List.find?_some hget
    simp only [Bool.and_eq_true, beq_iff_eq] at hfound
    refine ⟨hfound.1, ?_, fun _ => List.mem_of_find?_eq_some hget⟩
    rw [hfound.2]
    exact hpath

theorem hasPublished_of_read (h : s.stores.tables.HasRead requested ownership)
    (hlong : (publicationGuardedPaths requested).length ≤ ownership.length)
    (howner : ∀ r ∈ (publicationGuardedPaths requested).zip ownership,
      r.2.any (·.lockId == lockId))
    (hall : allStatus .published ownership) :
    s.stores.tables.HasPublished requested lockId := by
  intro p hp
  obtain ⟨k, hk, hpk⟩ := List.mem_iff_getElem.1 hp
  have hlt : k < ownership.length := lt_of_lt_of_le hk hlong
  have hzip : (p, ownership[k]) ∈ (publicationGuardedPaths requested).zip ownership := by
    rw [← hpk]
    refine List.mem_iff_getElem.2 ⟨k, ?_, List.getElem_zip⟩
    rw [List.length_zip]
    exact lt_min hk hlt
  have hstatus := List.all_eq_true.1 hall _ (List.getElem_mem hlt)
  obtain ⟨o, ho, hs⟩ := (Option.any_eq_true _ _).1 hstatus
  obtain ⟨o', ho', hid⟩ := (Option.any_eq_true _ _).1 (howner _ hzip)
  cases ho.symm.trans ho'
  obtain ⟨hc, hpath, hrow⟩ := h k o (List.getElem?_eq_some_iff.2 ⟨hlt, ho⟩)
  have hguarded : o.guardedPath = p :=
    (List.getElem?_eq_some_iff.1 hpath).2.symm.trans hpk
  have heq : o = ⟨requested.creator, p, lockId, .published⟩ := by
    cases o
    simp_all
  exact heq ▸ hrow (eq_of_beq hs)

theorem allStatus_of_uniform (h : uniformStatus ownership = .published) :
    allStatus .published ownership := by
  unfold uniformStatus at h
  split at h
  · assumption
  · cases h

theorem ContentLock.SameRequest.hasPublished {t : PublicationTables}
    (h : lock.SameRequest requested) (hpub : t.HasPublished requested lockId) :
    t.HasPublished lock lockId := by
  unfold HasPublished at hpub ⊢
  rw [h.creator_eq, h.paths_eq]
  exact hpub

theorem LandedInvariant.seen (hinv : LandedInvariant E P s) {creator : CreatorPubky}
    (h : s.stores.published creator lockId = some lock) :
    s.Seen E P lock lockId := by
  obtain ⟨hP, rfl, hid, hg⟩ := hinv.published creator lockId lock h
  exact ⟨hP, hid, hg, fun _ => h⟩

/-! ## Reservations -/

theorem LandedInvariant.lockId_of_keeps (hinv : LandedInvariant E P s) (hc : c ∈ s.calls)
    {t : PublicationTables} (hk : c.Keeps t lockId) : c.requested.lockId E = .ok lockId := by
  have hfacts := hinv.facts c hc
  unfold Keeps at hk
  split at hk
  · rename_i hp
    rw [hp] at hfacts
    exact hk ▸ (hfacts.1 rfl).2
  · rename_i hp
    rw [hp] at hfacts
    exact hk ▸ hfacts
  · rename_i hp
    rw [hp] at hfacts
    exact hk ▸ (hfacts.1 rfl).2
  · rename_i hp
    rw [hp] at hfacts
    exact hk.1 ▸ hfacts
  · exact hk.elim

section
variable (hfree : FaithfulLocks E P) (hinv : LandedInvariant E P s) (hc : s.calls[i]? = some c) (hid
  : c.requested.lockId E = .ok lockId)
include hfree hinv hc hid

theorem landedStep_reserved {rows : List ContentLockOwnership}
    (htables : LandedTables E P { s.stores.tables with ownership := rows })
    (hr : Reserves c.requested.creator lockId c.guardedPaths s.stores.tables.ownership
      rows) (hsame : Same c.requested (.beginning true c.requested lockId)) :
    LandedStep E P s (s.setPhase i c
      { s.stores with tables := { s.stores.tables with ownership := rows } }
      (.beginning true c.requested lockId)) := by
  have hreq := hinv.requested c (List.mem_of_getElem? hc)
  have hmono : ∀ {except lock id}, P lock → lock.lockId E = .ok id → s.Guarded except lock id →
      (s.setPhase i c { s.stores with tables := { s.stores.tables with ownership := rows } }
        (.beginning true c.requested lockId)).Guarded except lock id := by
    intro except lock id hP hlid hg
    refine hg.reserve { s.stores with tables := { s.stores.tables with ownership := rows } } hc
      htables.uniform.keys hr rfl fun _ hsameid => ?_
    exact hfree.apart lock c.requested lockId hP hreq (hsameid ▸ hlid) hid
  have hothers : ∀ (j : ℕ) (d : CreateCall) (id : LockId), s.calls[j]? = some d →
      d.Keeps { s.stores.tables with ownership := rows } id →
      d.requested.lockId E = .ok id ∧ s.Guarded (some j) d.requested id := by
    intro j d id hd hk
    exact ⟨hinv.lockId_of_keeps (List.mem_of_getElem? hd) hk,
      hinv.keeps j d id hd (hk.of_intents fun _ _ _ h => h)⟩
  refine landedStep_setPhase hinv hc htables
    ⟨fun o ho _ => hr.kept o ho, fun _ _ hP hlid hg => hmono hP hlid hg,
      fun _ _ _ _ hdel => ⟨hdel, fun h => h⟩⟩
    (fun _ _ _ h => .inl h) (fun _ h => .inl h) (fun id hk => ?_) (fun j d id _ hd hk => ?_)
    hsame ⟨fun _ => ⟨rfl, hid⟩, nofun⟩
  · obtain rfl : lockId = id := hk
    refine ⟨fun p hp => ?_, fun j d hji hd _ hkd => ?_⟩
    · obtain ⟨o, ho, hoc, hop, hoid, -⟩ := hr.owned p hp
      exact ⟨o, ho, hoc, hop, hoid⟩
    · -- the rows of another call that keeps the lock were there before
      rcases calls_setPhase hc hd with ⟨rfl, -⟩ | ⟨-, hd⟩
      · exact absurd rfl hji
      · obtain ⟨hdid, hg⟩ := hothers j d lockId hd hkd
        have hdreq := hinv.requested d (List.mem_of_getElem? hd)
        have heq := hfree.apart _ _ lockId hdreq hreq hdid hid
        rw [heq] at hg
        exact hr.hasPublished htables.uniform.keys hg.1
  · obtain ⟨hdid, hg⟩ := hothers j d id hd hk
    exact hmono (hinv.requested d (List.mem_of_getElem? hd)) hdid hg

theorem landedStep_reserve (hsame : Same c.requested phase)
    (h : s.stores.operate r (s.stores.tables.withOwnership (reservePaths
        s.stores.tables.ownership c.requested.creator c.guardedPaths lockId))
      (answered fun _ => .beginning true c.requested lockId) = (stores, phase)) :
    LandedStep E P s (s.setPhase i c stores phase) := by
  cases h
  rcases r.apply_cases s.stores.tables (s.stores.tables.withOwnership _) with
    ⟨e, happly⟩ | ⟨a, t, hop, happly⟩
  · rw [happly] at hsame ⊢
    exact landedStep_reads hinv hc hsame (reached_error e)
  · obtain ⟨rows, hrows, ht⟩ := Checks.map_eq_ok.1 hop
    cases ht
    have hr := reserves_of_reservePaths hrows
    have htables : LandedTables E P { s.stores.tables with ownership := rows } :=
      hinv.tables.withRows (hinv.tables.uniform.reserve hfree (fun _ h => h)
        (hinv.requested c (List.mem_of_getElem? hc)) hid hr)
    rcases happly with happly | ⟨e, happly⟩
    · rw [happly] at hsame ⊢
      exact landedStep_reserved hfree hinv hc hid htables hr hsame
    · rw [happly] at hsame ⊢
      have hmove : CallMoves s i c { s.stores.tables with ownership := rows }
          (.finished (.error e)) none :=
        ⟨.of_mem hr.kept, nofun, fun _ _ _ _ _ hk => hk.of_intents fun _ _ _ h => h,
          fun _ hk => hk.elim⟩
      exact landedStep_move hinv hc htables rfl hmove hsame fun _ => trivial

end

/-! ## Intents -/

variable {token : Uuid}

theorem CreateCall.Keeps.of_cons {t : PublicationTables} {new : PublicationIntent}
    {d : CreateCall} (hunused : d.phase.token? ≠ some new.publicationToken)
    (h : d.Keeps { t with intents := new :: t.intents } lockId) : d.Keeps t lockId := by
  unfold Keeps at h ⊢
  split at h
  · exact h
  · exact h
  · exact h
  · rename_i hp
    obtain ⟨rfl, j, hj, hu⟩ := h
    refine ⟨rfl, j, ?_, hu⟩
    rcases List.mem_cons.1 hj with rfl | hj
    · simp only [uncompleted, holdsToken, Bool.and_eq_true,
        beq_iff_eq] at hu
      rw [hp, hu.1.2] at hunused
      exact absurd rfl hunused
    · exact hj
  · exact h.elim

theorem landedStep_begin (hfree : FaithfulLocks E P) (hinv : LandedInvariant E P s)
    (hc : s.calls[i]? = some c) {newly : Bool} (hp : c.phase = .beginning newly lock lockId)
    (hunused : s.unused token)
    (hsame : Same c.requested phase)
    (h : s.stores.operate r
      (s.stores.tables.beginPublication E c.requested.creator lockId token lock) (fun
        | .ok _ => .writing newly lock lockId token
        | .error e => if newly then .compensatingPaths lockId e else .finished (.error e)) =
      (stores, phase)) :
    LandedStep E P s (s.setPhase i c stores phase) := by
  have hmem := List.mem_of_getElem? hc
  have hfacts := hinv.facts c hmem
  rw [hp] at hfacts
  have hlock : P lock ∧ lock.lockId E = .ok lockId ∧ lock.creator = c.requested.creator := by
    have hcreator := (hinv.same c hmem lock lockId (by rw [hp]; rfl)).creator_eq
    cases newly with
    | true =>
      obtain ⟨rfl, hid⟩ := hfacts.1 rfl
      exact ⟨hinv.requested c hmem, hid, hcreator⟩
    | false => exact ⟨(hfacts.2 rfl).ofRun, (hfacts.2 rfl).id, hcreator⟩
  have hown : ∀ (answer : Except ApplicationError Unit) t id, Keeps t ⟨c.requested,
      match answer with
        | .ok _ => .writing newly lock lockId token
        | .error e => if newly then .compensatingPaths lockId e else .finished (.error e)⟩ id →
      c.Keeps s.stores.tables id := by
    intro answer t id hk
    unfold Keeps
    rw [hp]
    cases newly <;> cases answer <;> exact hk
  refine landedStep_operate hinv hc hsame (fun a t hop => ?_) (fun a t hop answer _ => ?_)
    (fun e id hk => hown (.error e) _ id hk) (fun answer s' he _ => ?_) h
  · obtain ⟨hP, hid, hcreator⟩ := hlock
    refine ⟨hinv.tables.begin hfree hP hid hcreator hop, ?_⟩
    obtain ⟨rfl, -⟩ := beginPublication_eq_ok hop
    rfl
  · obtain ⟨rfl, -⟩ := beginPublication_eq_ok hop
    refine ⟨none, .of_mem fun _ ho => ho, nofun, fun j d id _ hd hk => ?_,
      fun id hk => ⟨hown answer _ id hk, nofun⟩⟩
    rw [unused, Bool.and_eq_true, List.all_eq_true] at hunused
    exact Keeps.of_cons
      (by simpa using hunused.1 d (List.mem_of_getElem? hd)) hk
  · cases answer with
    | ok a => exact ⟨hfacts.1, fun hn => (hfacts.2 hn).evolve he⟩
    | error e =>
      cases newly with
      | true => exact (hfacts.1 rfl).2
      | false => trivial

section
variable (hfree : FaithfulLocks E P) (hinv : LandedInvariant E P s) (hc : s.calls[i]? = some c)
include hfree hinv hc

theorem landedStep_release {error : ApplicationError}
    (hp : c.phase = .compensatingPaths lockId error) (hsame : Same c.requested phase)
    (h : s.stores.operate r (s.stores.tables.withOwnership (.ok
        (compensateReservedPaths s.stores.tables.ownership c.requested.creator
          c.guardedPaths lockId))) (fun _ => .finished (.error error)) = (stores, phase)) :
    LandedStep E P s (s.setPhase i c stores phase) := by
  have hmem := List.mem_of_getElem? hc
  have hid := hinv.facts c hmem
  rw [hp] at hid
  refine landedStep_operate hinv hc hsame (fun a t hop => ?_) (fun a t hop answer _ => ?_)
    (fun e id hk => ?_) (fun answer s' he _ => ?_) h
  · cases hop
    exact ⟨hinv.tables.withRows
      (hinv.tables.uniform.compensate hfree (fun _ h => h) (hinv.requested c hmem) hid), rfl⟩
  · cases hop
    refine ⟨some (c.requested.creator, lockId), .compensate, ?_,
      fun _ _ _ _ _ hk => hk.of_intents fun _ _ _ h => h, fun _ hk => hk.elim⟩
    rintro _ _ ⟨⟩
    refine ⟨rfl, ?_⟩
    unfold Keeps
    rw [hp]
  · exact hk.elim
  · trivial

theorem landedStep_compensate {error : ApplicationError} {attempts : ℕ} {message : String}
    (hp : c.phase = .compensating lockId token error attempts)
    (hsame : Same c.requested phase)
    (h : s.stores.operate r
      (s.stores.tables.compensatePublication c.requested.creator lockId token)
      (retried attempts (.compensating lockId token error)
        (undone error message)) = (stores, phase)) :
    LandedStep E P s (s.setPhase i c stores phase) := by
  have hid := hinv.facts c (List.mem_of_getElem? hc)
  rw [hp] at hid
  -- the call keeps the lock as long as its intent is open
  have hown : ∀ (answer : Except ApplicationError Bool) t id, Keeps t ⟨c.requested,
      retried attempts (.compensating lockId token error)
        (undone error message) answer⟩ id →
      id = lockId ∧ ∃ j ∈ t.intents,
        uncompleted c.requested.creator lockId token j := by
    intro answer t id
    exact retried_cases
      (M := fun phase => Keeps t ⟨c.requested, phase⟩ id → id = lockId ∧ _)
      (fun _ hk => hk.elim) (fun _ hk => ⟨hk.1.symm, hk.2⟩) fun _ hk => hk.elim
  have hkeeps : (∃ j ∈ s.stores.tables.intents,
      uncompleted c.requested.creator lockId token j) →
      c.Keeps s.stores.tables lockId := by
    intro hopen
    unfold Keeps
    rw [hp]
    exact ⟨rfl, hopen⟩
  refine landedStep_operate hinv hc hsame (fun a t hop => ?_) (fun a t hop answer _ => ?_)
    (fun e id hk => ?_) (fun answer s' he _ => ?_) h
  · refine ⟨hinv.tables.compensate hfree hop, ?_⟩
    unfold compensatePublication at hop
    split at hop <;> cases hop <;> rfl
  · unfold compensatePublication at hop
    split at hop
    · cases hop
      refine ⟨none, .of_mem fun _ ho => ho, nofun, fun _ _ _ _ _ hk => hk, fun id hk => ?_⟩
      obtain ⟨rfl, hopen⟩ := hown answer _ id hk
      exact ⟨hkeeps hopen, nofun⟩
    · rename_i j hfind
      cases hop
      refine ⟨some (c.requested.creator, lockId), .compensate, ?_, fun _ _ _ _ _ hk =>
        hk.of_intents fun _ _ _ ⟨k, hk, hu⟩ => ⟨k, List.mem_of_mem_filter hk, hu⟩, fun id hk => ?_⟩
      · rintro _ _ ⟨⟩
        exact ⟨rfl, hkeeps ⟨j, List.mem_of_find?_eq_some hfind, List.find?_some hfind⟩⟩
      · obtain ⟨-, k, hk, hu⟩ := hown answer _ id hk
        rw [List.mem_filter, hu] at hk
        cases hk.2
  · obtain ⟨rfl, hopen⟩ := hown (.error e) _ id hk
    exact hkeeps hopen
  · exact retried_cases (fun _ => trivial) (fun _ => hid) fun _ => trivial

end

/-! ## Writes -/

variable {newly : Bool}

theorem PublishState.Guarded.let_go (hc : s.calls[i]? = some c)
    (hmove : CallMoves s i c stores.tables phase none)
    (hown : KeepsNothing c.requested phase)
    (h : s.Guarded (some i) lock lockId) :
    (s.setPhase i c stores phase).Guarded none lock lockId := by
  obtain ⟨hrows, hothers⟩ := h.move hc hmove (fun _ => nofun)
  refine ⟨hrows, fun j d _ hd hcreator hk => ?_⟩
  rcases calls_setPhase hc hd with ⟨rfl, rfl⟩ | ⟨hji, -⟩
  · exact absurd hk (hown _ lockId)
  · exact hothers j d (fun heq => hji (Option.some.inj heq).symm) hd hcreator hk

section
variable (hinv : LandedInvariant E P s) (hc : s.calls[i]? = some c) (hp : c.phase = .writing newly
  lock lockId token)
include hinv hc hp

theorem LandedInvariant.writes :
    P lock ∧ lock.creator = c.requested.creator ∧ lock.lockId E = .ok lockId ∧
      s.Guarded (some i) lock lockId := by
  have hmem := List.mem_of_getElem? hc
  have hcreator := (hinv.same c hmem lock lockId (by rw [hp]; rfl)).creator_eq
  have hfacts := hinv.facts c hmem
  rw [hp] at hfacts
  cases newly with
  | true =>
    obtain ⟨rfl, hid⟩ := hfacts.1 rfl
    refine ⟨hinv.requested c hmem, rfl, hid, hinv.keeps i c lockId hc ?_⟩
    unfold Keeps
    rw [hp]
  | false =>
    have hseen := hfacts.2 rfl
    exact ⟨hseen.ofRun, hcreator, hseen.id, hseen.guarded.weaken _⟩

theorem landedStep_sent (htables : stores.tables = s.stores.tables)
    (hown : KeepsNothing c.requested phase)
    (hpublished : ∀ creator id l, stores.published creator id = some l →
      s.stores.published creator id = some l ∨
        creator = c.requested.creator ∧ id = lockId ∧ l = lock)
    (hkept : ∀ l id, P l → l.lockId E = .ok id → s.stores.published l.creator id = some l →
      stores.published l.creator id = some l)
    (hinFlight : ∀ w ∈ stores.inFlight, w ∈ s.stores.inFlight ∨
      w = ⟨c.requested.creator, lockId, lock⟩) (hsame : Same c.requested phase)
    (hfacts : (s.setPhase i c stores phase).Guarded none lock lockId →
      Facts E P (s.setPhase i c stores phase) c.requested phase) :
    LandedStep E P s (s.setPhase i c stores phase) := by
  obtain ⟨hP, hcreator, hid, hguarded⟩ := hinv.writes hc hp
  have hmove : CallMoves s i c stores.tables phase none := by
    rw [htables]
    exact ⟨.of_mem fun _ ho => ho, nofun, fun _ _ _ _ _ h => h,
      fun id hk => absurd hk (hown _ id)⟩
  have hlands := hguarded.let_go hc hmove hown
  refine landedStep_setPhase hinv hc (htables ▸ hinv.tables)
    (evolves_of_moves hc hmove (by rw [htables]) hkept) (fun creator id l hl => ?_)
    (fun w hw => ?_) (fun id hk => absurd hk (hown _ id)) (fun j d id hji hd hk => ?_) hsame
    (hfacts hlands)
  · rcases hpublished creator id l hl with hold | ⟨rfl, rfl, rfl⟩
    · exact .inl hold
    · exact .inr ⟨hP, hcreator, hid, hlands⟩
  · rcases hinFlight w hw with hold | rfl
    · exact .inl hold
    · exact .inr ⟨hP, hcreator, hid, hlands⟩
  · exact Guarded.move hc hmove (fun _ => nofun)
      (hinv.keeps j d id hd (hmove.others j d id hji hd hk))

end

theorem landedStep_write (hfree : FaithfulLocks E P) (hinv : LandedInvariant E P s)
    (hc : s.calls[i]? = some c) (hp : c.phase = .writing newly lock lockId token) {next : Uuid}
    (hsame : Same c.requested phase)
    (h : c.advance E s.stores r next = some (stores, phase)) :
    LandedStep E P s (s.setPhase i c stores phase) := by
  obtain ⟨hP, hcreator, hid, -⟩ := hinv.writes hc hp
  simp only [advance, hp] at h
  cases r with
  | runs =>
    cases h
    refine landedStep_sent hinv hc hp rfl (fun _ _ hk => hk) (fun creator id l hl => ?_)
      (fun l id hPl hidl hl => ?_) (fun w hw => .inl hw) hsame
      (fun hg => ⟨hP, hid, hg, fun _ => ?_⟩)
    · simp only [write] at hl
      split at hl
      · rename_i hkey
        exact .inr ⟨hkey.1, hkey.2, (Option.some.inj hl).symm⟩
      · exact .inl hl
    · -- a lock with the id of the written one is the written one
      simp only [write]
      split
      · rename_i hkey
        rw [hfree.apart l lock lockId hPl hP (hkey.2 ▸ hidl) hid]
      · exact hl
    · simp only [write, setPhase, hcreator, and_self, if_true]
  | fails e =>
    cases h
    have hfacts := hinv.facts c (List.mem_of_getElem? hc)
    rw [hp] at hfacts
    refine landedStep_read hinv hc (fun id hk => ?_) hsame fun _ => ?_
    · unfold Keeps
      rw [hp]
      cases newly with
      | true => exact hk.1
      | false => exact hk
    · cases newly with
      | true => exact (hfacts.1 rfl).2
      | false => trivial
  | lost e =>
    cases h
    exact landedStep_sent hinv hc hp rfl (fun _ _ hk => hk) (fun _ _ _ hl => .inl hl)
      (fun _ _ _ _ hl => hl) (fun w hw => (List.mem_cons.1 hw).symm) hsame fun _ => trivial

/-! ## Steps -/

theorem PublicationTables.HasRows.promote {t t' : PublicationTables} {lock : ContentLock}
    {lockId : LockId} {a : Unit} (hrows : t.HasRows lock lockId)
    (h : t.withOwnership (markPathsPublished t.ownership lock.creator
      (publicationGuardedPaths lock) lockId) = .ok (a, t')) : t'.HasPublished lock lockId := by
  obtain ⟨rows, hmark, ht⟩ := Checks.map_eq_ok.1 h
  cases ht
  rw [markPathsPublished_eq hmark]
  intro p hp
  obtain ⟨⟨_, _, _, status⟩, ho, rfl, rfl, rfl⟩ := hrows p hp
  refine Table.mem_updateWhere.2 ⟨_, ho, .inl ⟨?_, rfl⟩⟩
  simp only [promoted, Bool.and_eq_true, beq_iff_eq, List.contains_iff_mem]
  exact ⟨⟨trivial, hp⟩, trivial⟩

variable {C : Codec}

/-- **One operation of a call** keeps the landed locks guarded. -/
theorem landedStep_advance (hfree : FaithfulLocks E P) (hinv : LandedInvariant E P s)
    (hc : s.calls[i]? = some c)
    (hfresh : ∀ newly lock lockId, c.phase = .beginning newly lock lockId → s.unused token)
    (h : c.advance E s.stores r token = some (stores, phase)) :
    LandedStep E P s (s.setPhase i c stores phase) := by
  have hmem := List.mem_of_getElem? hc
  have hsame := same_advance (hinv.same c hmem) h
  have hreq := hinv.requested c hmem
  have hfacts := hinv.facts c hmem
  have herror : ∀ e, Reached E P s c.requested (.finished (.error e)) := reached_error
  have hlets : ∀ e, KeepsNothing c.requested (.finished (.error e)) :=
    fun _ _ _ hk => hk
  have hlock : ∀ {lock lockId}, c.phase.lock? = some (lock, lockId) →
      lock.SameRequest c.requested := fun hl => hinv.same c hmem _ _ hl
  obtain ⟨requested, before⟩ := c
  cases before with
  | readingOwnership seen =>
    cases h
    refine landedStep_reads hinv hc hsame (answered_cases herror fun t ht => ?_)
    obtain rfl := Except.ok.inj (read_eq_ok ht)
    refine readPath_cases (fun l hl => ?_) fun l hl hlong => ?_
    · exact reached_of_facts (fun _ _ hk => hk) (hasRead_of_reads hfacts hl)
    · have hread : s.stores.tables.HasRead requested l := by
        rcases hl with rfl | hl
        · exact hfacts
        · exact hasRead_of_reads hfacts hl
      refine afterOwnership_cases herror (fun _ _ => reached_reserving)
        fun lockId hown => ?_
      exact reached_of_facts (fun _ _ hk => hk) (hasPublished_of_read hread hlong hown)
  | recovering ownership lockId =>
    cases h
    refine landedStep_reads hinv hc hsame (answered_cases herror fun a ha => ?_)
    refine afterRecovery_cases herror ?_ ?_
    · exact reached_of_facts (fun _ _ hk => hk) hfacts
    · rintro k original rfl
      obtain ⟨hP, hid⟩ := hinv.tables.recovered (read_eq_ok ha)
      exact reached_of_facts (fun _ _ hk => hk)
        ⟨hP, hid, fun hs => hfacts (allStatus_of_uniform hs)⟩
  | rereadingOwnership ownership lockId seen =>
    cases h
    refine landedStep_reads hinv hc hsame (answered_cases herror fun t _ => ?_)
    refine readPath_cases (fun l _ => ?_) fun l _ _ => ?_
    · exact reached_of_facts (fun _ _ hk => hk) hfacts
    · refine afterReread_cases herror (fun _ _ => reached_reserving) ?_
      exact reached_of_facts (fun _ _ hk => hk)
        fun hs => hfacts (allStatus_of_uniform hs)
  | readingWritten status lockId original =>
    cases h
    refine landedStep_reads hinv hc hsame (answered_cases herror fun a ha => ?_)
    refine afterReadWritten_cases herror fun hread => ?_
    have hpublished := Except.ok.inj (read_eq_ok ha)
    exact reached_of_facts (fun _ _ hk => hk)
      ⟨hinv.seen (hpublished.trans hread), hfacts.2.2⟩
  | readingPublished status lockId =>
    cases h
    refine landedStep_reads hinv hc hsame (answered_cases herror fun a ha => ?_)
    refine afterReadPublished_cases herror fun existing hexisting _ _ => ?_
    have hpublished := Except.ok.inj (read_eq_ok ha)
    exact reached_of_facts (fun _ _ hk => hk)
      ⟨hinv.seen (hpublished.trans hexisting), hfacts⟩
  | recoveringAgain status lock lockId =>
    have hreqd := hlock rfl
    obtain ⟨hseen, hpub⟩ := hfacts
    cases h
    refine landedStep_reads hinv hc hsame (answered_cases herror fun a ha => ?_)
    refine afterSecondRecovery_cases herror (fun hs => ?_) ?_ ?_
    · exact reached_of_facts (fun _ _ hk => hk) ⟨hseen, hreqd.hasPublished (hpub hs)⟩
    · exact reached_of_facts (fun _ _ hk => hk) ⟨nofun, fun _ => hseen⟩
    · rintro k original rfl
      obtain ⟨hP, hid⟩ := hinv.tables.recovered (read_eq_ok ha)
      obtain rfl := hfree.apart original lock lockId hP hseen.ofRun hid hseen.id
      exact reached_of_facts (fun _ _ hk => hk) ⟨hseen, hpub⟩
  | reconcilingRecovered status lock lockId =>
    have hreqd := hlock rfl
    obtain ⟨hseen, hpub⟩ := hfacts
    refine landedStep_quiet hinv hc hsame
      (fun _ _ hop => ⟨hinv.tables.reconcile hop, quiet_reconcile hop⟩)
      (fun answer => ?_) (fun answer s' he _ => ?_) (Option.some.inj h)
    · refine answered_cases hlets fun b _ => afterReconcile_cases hlets ?_
      split <;> exact fun _ _ hk => hk
    · refine answered_cases (fun _ => trivial) fun b _ =>
        afterReconcile_cases (fun _ => trivial) ?_
      split
      · exact hseen.evolve he
      · rename_i hs
        refine ⟨hseen.evolve he, (hreqd.hasPublished (hpub ?_)).evolve he⟩
        cases status with
        | reserved => exact absurd rfl hs
        | published => rfl
  | reserving lock lockId =>
    obtain ⟨rfl, hid⟩ := hfacts
    exact landedStep_reserve hfree hinv hc hid hsame (Option.some.inj h)
  | beginning newly lock lockId =>
    have hunused := hfresh newly lock lockId rfl
    exact landedStep_begin hfree hinv hc rfl hunused hsame (Option.some.inj h)
  | compensatingPaths lockId error =>
    exact landedStep_release hfree hinv hc rfl hsame (Option.some.inj h)
  | writing newly lock lockId k => exact landedStep_write hfree hinv hc rfl hsame h
  | abandoning lockId k error attempts =>
    refine landedStep_quiet hinv hc hsame
      (fun _ _ hop => ⟨hinv.tables.abandon hop, quiet_abandon hop⟩)
      (fun answer => ?_) (fun answer s' he _ => ?_) (Option.some.inj h)
    · exact retried_cases hlets (fun _ _ _ hk => hk) fun _ _ _ hk => hk
    · exact retried_cases (fun _ => trivial) (fun _ => trivial) fun _ => trivial
  | compensating lockId k error attempts =>
    exact landedStep_compensate hfree hinv hc rfl hsame (Option.some.inj h)
  | markingWritten lock lockId k attempts =>
    refine landedStep_quiet hinv hc hsame
      (fun _ _ hop => ⟨hinv.tables.markWritten hop, quiet_markWritten hop⟩)
      (fun answer => ?_) (fun answer s' he _ => ?_) (Option.some.inj h)
    · refine retried_cases hlets (fun _ _ _ hk => hk) fun b => ?_
      cases b <;> exact fun _ _ hk => hk
    · refine retried_cases (fun _ => trivial)
        (fun _ => Seen.evolve hfacts he) fun b => ?_
      cases b with
      | true => exact Seen.evolve hfacts he
      | false => trivial
  | reconciling lock lockId =>
    refine landedStep_quiet hinv hc hsame
      (fun _ _ hop => ⟨hinv.tables.reconcile hop, quiet_reconcile hop⟩)
      (fun answer => ?_) (fun answer s' he _ => ?_) (Option.some.inj h)
    · exact answered_cases hlets fun b _ =>
        afterReconcile_cases hlets fun _ _ hk => hk
    · exact answered_cases (fun _ => trivial) fun b _ =>
        afterReconcile_cases (fun _ => trivial) (Seen.evolve hfacts he)
  | markingPublished lock lockId =>
    have hreqd := hlock rfl
    have hseen : s.Seen E P lock lockId := hfacts
    simp only [advance, guardedPaths] at h
    rw [← hreqd.creator_eq, ← hreqd.paths_eq] at h
    refine landedStep_quiet hinv hc hsame (fun _ t hop => ⟨?_, ?_⟩)
      (fun answer => ?_) (fun answer s' he hok => ?_) (Option.some.inj h)
    · obtain ⟨rows, hrows, ht⟩ := Checks.map_eq_ok.1 hop
      cases ht
      rw [markPathsPublished_eq hrows]
      exact hinv.tables.withRows
        (hinv.tables.uniform.promote hfree (fun _ h => h) hseen.ofRun hseen.id)
    · exact quiet_markPublished hop
    · exact answered_cases hlets fun _ _ _ _ hk => hk
    · refine answered_cases (fun _ => trivial) fun a ha => ?_
      exact ⟨hseen.evolve he, hseen.guarded.1.promote (hok a ha)⟩
  | finished result =>
    cases h
  | stopped =>
    cases h

/-! ## Events -/

variable {resources : GuardedResourceRepository}

theorem landedStep_stores (hinv : LandedInvariant E P s) {stores : PublishStores}
    (hrows : stores.tables.ownership = s.stores.tables.ownership)
    (hintents : stores.tables.intents = s.stores.tables.intents)
    (hpublished : ∀ creator lockId lock, stores.published creator lockId = some lock →
      s.stores.published creator lockId = some lock ∨
        ∃ w ∈ s.stores.inFlight, w = ⟨creator, lockId, lock⟩)
    (hinFlight : ∀ w ∈ stores.inFlight, w ∈ s.stores.inFlight)
    (hkept : ∀ lock lockId, P lock → lock.lockId E = .ok lockId →
      stores.tables.deletionExists lock.creator lockId = false →
      s.stores.tables.deletionExists lock.creator lockId = false ∧
        (s.stores.published lock.creator lockId = some lock →
          stores.published lock.creator lockId = some lock)) :
    LandedStep E P s { s with stores } := by
  have hkeeps : ∀ (d : CreateCall) lockId, d.Keeps stores.tables lockId →
      d.Keeps s.stores.tables lockId := fun d lockId hk => hk.of_intents (by rw [hintents]; simp)
  have hguarded : ∀ {except lock lockId}, s.Guarded except lock lockId →
      Guarded { s with stores } except lock lockId := by
    intro except lock lockId hg
    refine ⟨fun p hp => ?_, fun j d hne hd hc hk p hp => ?_⟩
    · show ∃ o ∈ stores.tables.ownership, _
      rw [hrows]
      exact hg.1 p hp
    · show _ ∈ stores.tables.ownership
      rw [hrows]
      exact hg.2 j d hne hd hc (hkeeps d lockId hk) p hp
  have he : LandedKept E P s { s with stores } :=
    ⟨fun o ho _ => hrows ▸ ho, fun _ _ _ _ hg => hguarded hg, hkept⟩
  refine ⟨⟨⟨⟨hrows ▸ hinv.tables.uniform, hintents ▸ hinv.tables.intents⟩,
      hintents ▸ hinv.tables.keys⟩,
    fun creator lockId lock hl => ?_, fun w hw => ?_, hinv.same, hinv.requested,
    fun i c lockId hc hk => hguarded (hinv.keeps i c lockId hc (hkeeps c lockId hk)),
    fun c hc => (hinv.facts c hc).evolve he⟩, he⟩
  · rcases hpublished creator lockId lock hl with hold | ⟨w, hw, rfl⟩
    · obtain ⟨hP, hcreator, hid, hg⟩ := hinv.published creator lockId lock hold
      exact ⟨hP, hcreator, hid, hguarded hg⟩
    · obtain ⟨hP, hcreator, hid, hg⟩ := hinv.inFlight _ hw
      exact ⟨hP, hcreator, hid, hguarded hg⟩
  · obtain ⟨hP, hcreator, hid, hg⟩ := hinv.inFlight w (hinFlight w hw)
    exact ⟨hP, hcreator, hid, hguarded hg⟩

theorem landedStep_call (hinv : LandedInvariant E P s) {c : CreateCall} (hP : P c.requested)
    (hnone : KeepsNothing c.requested c.phase) (hsame : c.Same)
    (hfacts : Facts E P s c.requested c.phase) :
    LandedStep E P s { s with calls := s.calls ++ [c] } := by
  have hcalls : ∀ {j : ℕ} {d : CreateCall}, (s.calls ++ [c])[j]? = some d →
      s.calls[j]? = some d ∨ d = c := by
    intro j d hd
    rw [List.getElem?_append] at hd
    split at hd
    · exact .inl hd
    · exact .inr (List.mem_singleton.1 (List.mem_of_getElem? hd))
  have hguarded : ∀ {except lock lockId}, s.Guarded except lock lockId →
      Guarded { s with calls := s.calls ++ [c] } except lock lockId := by
    intro except lock lockId hg
    refine ⟨hg.1, fun j d hne hd hcreator hk => ?_⟩
    rcases hcalls hd with hd | rfl
    · exact hg.2 j d hne hd hcreator hk
    · exact absurd hk (hnone _ lockId)
  have he : LandedKept E P s { s with calls := s.calls ++ [c] } :=
    ⟨fun _ ho _ => ho, fun _ _ _ _ hg => hguarded hg, fun _ _ _ _ hdel => ⟨hdel, fun h => h⟩⟩
  refine ⟨⟨hinv.tables, fun creator lockId lock hl => ?_, fun w hw => ?_, ?_, ?_,
    fun i d lockId hd hk => ?_, ?_⟩, he⟩
  · obtain ⟨hP, hcreator, hid, hg⟩ := hinv.published creator lockId lock hl
    exact ⟨hP, hcreator, hid, hguarded hg⟩
  · obtain ⟨hP, hcreator, hid, hg⟩ := hinv.inFlight w hw
    exact ⟨hP, hcreator, hid, hguarded hg⟩
  · exact List.forall_mem_append.2 ⟨hinv.same, List.forall_mem_singleton.2 hsame⟩
  · exact List.forall_mem_append.2 ⟨hinv.requested, List.forall_mem_singleton.2 hP⟩
  · rcases hcalls hd with hd | rfl
    · exact hguarded (hinv.keeps i d lockId hd hk)
    · exact absurd hk (hnone _ lockId)
  · exact List.forall_mem_append.2 ⟨fun d hd => (hinv.facts d hd).evolve he,
      List.forall_mem_singleton.2 (hfacts.evolve he)⟩

/-- The locks that the calls of a run ask for. -/
def LocksOf (events : List LockEvent) (lock : ContentLock) : Prop :=
  ∃ request now, LockEvent.call request now ∈ events ∧ lock = request.contentLock now

/-- **Every event** keeps the landed locks guarded. -/
theorem landedStep_exec (hfree : FaithfulLocks E P) {e : LockEvent}
    (hasks : ∀ lock, LocksOf [e] lock → P lock) (hfresh : freshToken s e)
    (hinv : LandedInvariant E P s) (h : s.execLock C E resources e = some s') :
    LandedStep E P s s' := by
  cases e with
  | call request now =>
    cases h
    have hP : P (request.contentLock now) := hasks _ ⟨request, now, List.mem_cons_self, rfl⟩
    unfold start
    cases request.validated C E resources now with
    | ok lock =>
      refine landedStep_call hinv hP (fun _ _ hk => hk) (fun _ _ hl => by cases hl) ?_
      intro k o hk
      cases hk
    | error e =>
      exact landedStep_call hinv hP (fun _ _ hk => hk) (fun _ _ hl => by cases hl) trivial
  | advance i r token =>
    simp only [execLock, exec, Option.bind_eq_some_iff,
      Option.map_eq_some_iff] at h
    obtain ⟨c, hc, ⟨stores, phase⟩, hadv, rfl⟩ := h
    refine landedStep_advance hfree hinv hc (fun newly lock lockId hp => ?_) hadv
    rw [freshToken, hc, Option.all_some, hp] at hfresh
    exact hfresh
  | stop i =>
    simp only [execLock, exec, Option.bind_eq_some_iff] at h
    obtain ⟨c, hc, h⟩ := h
    split at h
    · cases h
    · cases h
      exact landedStep_reads hinv hc (fun _ _ hl => by cases hl)
        (reached_of_facts (fun _ _ hk => hk) trivial)
  | land k =>
    simp only [execLock, exec, Option.map_eq_some_iff] at h
    obtain ⟨w, hw, rfl⟩ := h
    have hmem := List.mem_of_getElem? hw
    obtain ⟨hP, hcreator, hid, -⟩ := hinv.inFlight w hmem
    refine landedStep_stores hinv rfl rfl (fun creator lockId lock hl => ?_)
      (fun v hv => List.mem_of_mem_eraseIdx hv)
      fun lock lockId hPl hidl hdel => ⟨hdel, fun hl => ?_⟩
    · simp only [write] at hl
      split at hl
      · rename_i hkey
        cases hl
        exact .inr ⟨w, hmem, by rw [hkey.1, hkey.2]⟩
      · exact .inl hl
    · simp only [write]
      split
      · rename_i hkey
        rw [hfree.apart lock w.lock w.lockId hPl hP (hkey.2 ▸ hidl) hid]
      · exact hl
  | delete key =>
    cases h
    refine landedStep_stores hinv rfl rfl (fun _ _ _ hl => .inl hl) (fun _ hw => hw)
      fun lock lockId _ _ hdel => ⟨?_, fun hl => hl⟩
    simp only [deletionExists, delete, List.contains_cons,
      Bool.or_eq_false_iff] at hdel ⊢
    exact hdel.2
  | withdraw key =>
    simp only [execLock] at h
    split at h
    · rename_i hkey
      cases h
      refine landedStep_stores hinv rfl rfl (fun creator lockId lock hl => ?_) (fun _ hw => hw)
        fun lock lockId _ _ hdel => ⟨hdel, fun hl => ?_⟩
      · simp only [withdraw] at hl
        split at hl
        · cases hl
        · exact .inl hl
      · simp only [withdraw]
        split
        · rename_i heq
          rw [heq.1, heq.2] at hdel
          cases hkey.symm.trans hdel
        · exact hl
    · cases h

theorem landedInvariant_init (E : Externals) (P : ContentLock → Prop) :
    LandedInvariant E P (init [] fun _ _ => none) where
  tables := ⟨⟨⟨List.nodup_nil, by rintro o ⟨⟩⟩, by rintro i ⟨⟩⟩, List.nodup_nil⟩
  published := by rintro _ _ _ ⟨⟩
  inFlight := by rintro w ⟨⟩
  same := by rintro c ⟨⟩
  requested := by rintro c ⟨⟩
  keeps := by rintro i c lockId hc; cases hc
  facts := by rintro c ⟨⟩

/-- **Landed locks are guarded** along every run whose locks have ids of their own. -/
theorem landedStep_of_run {events : List LockEvent} (hfree : FaithfulLocks E P)
    (hasks : ∀ lock, LocksOf events lock → P lock) (hinv : LandedInvariant E P s)
    (hrun : LockRun C E resources s events s') : LandedStep E P s s' := by
  refine hrun.restrict_mem.invariant (I := fun t => LandedStep E P s t) ⟨hinv, .refl s⟩ ?_
  rintro m e t ⟨hinv, he⟩ ⟨⟨hexec, hfresh⟩, hmem⟩
  have hstep : LandedStep E P m t := by
    refine landedStep_exec hfree ?_ hfresh hinv hexec
    rintro lock ⟨request, now, hcall, rfl⟩
    rw [← List.mem_singleton.1 hcall] at hmem
    exact hasks _ ⟨request, now, hmem, rfl⟩
  exact ⟨hstep.inv, he.trans hstep.evolves⟩

end PubkyLocks
