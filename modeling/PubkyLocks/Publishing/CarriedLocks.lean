/-
  The locks in a run of `CreateContentLock::execute`.

  A call works on the lock it asks for or on an older one with the same paths,
  which it found in an intent or on the homeserver.  If no two locks of a run have
  the same id and the column of the intents gives them back as they were sent
  (`FaithfulLocks`), the rows of a lock are all there and have one status
  (`Uniform`).
-/
import PubkyLocks.Publishing.Reservations

namespace PubkyLocks

open CreateCall CreatePhase Ownership PublicationTables

/-! ## Rows of one lock -/

/-- The locks with the same id are equal, and a JSONB column gives each of them
    back as it was sent. -/
structure FaithfulLocks (E : Externals) (P : ContentLock → Prop) : Prop where
  apart : ∀ a b lockId, P a → P b → a.lockId E = .ok lockId → b.lockId E = .ok lockId → a = b
  stored : ∀ lock, P lock → lock.readBack E = lock

/-- The row is one of a lock that guards its path. -/
def ContentLockOwnership.For (E : Externals) (o : ContentLockOwnership) (lock : ContentLock) :
    Prop :=
  lock.creator = o.creator ∧ lock.lockId E = .ok o.lockId ∧
    o.guardedPath ∈ publicationGuardedPaths lock

/-- Every path has one row at most, and the paths of a lock have rows of one
    status. -/
structure Uniform (E : Externals) (Q : ContentLock → Prop) (rows : List ContentLockOwnership) :
    Prop where
  keys : (rows.map Ownership.key).Nodup
  rows : ∀ o ∈ rows, ∃ lock, Q lock ∧ o.For E lock ∧
    ∀ p ∈ publicationGuardedPaths lock, { o with guardedPath := p } ∈ rows

variable {E : Externals} {P Q : ContentLock → Prop} {rows rows' : List ContentLockOwnership}
  {lock : ContentLock} {lockId : LockId}

section
variable (hfree : FaithfulLocks E P) (hsub : ∀ l, Q l → P l) (h : Uniform E Q rows)
include hfree hsub h

theorem Uniform.row_of_mem (hlock : P lock)
    {o : ContentLockOwnership} (ho : o ∈ rows) (hid : lock.lockId E = .ok o.lockId) {p : String}
    (hp : p ∈ publicationGuardedPaths lock) : { o with guardedPath := p } ∈ rows := by
  obtain ⟨owner, howner, hfor, hall⟩ := h.rows o ho
  obtain rfl := hfree.apart owner lock o.lockId (hsub _ howner) hlock hfor.2.1 hid
  exact hall p hp

theorem Uniform.path_of_mem (hlock : P lock)
    {o : ContentLockOwnership} (ho : o ∈ rows) (hid : lock.lockId E = .ok o.lockId) :
    o.For E lock := by
  obtain ⟨owner, howner, hfor, -⟩ := h.rows o ho
  obtain rfl := hfree.apart owner lock o.lockId (hsub _ howner) hlock hfor.2.1 hid
  exact hfor

theorem Uniform.reserve (hlock : Q lock) (hid : lock.lockId E = .ok lockId)
    (hr : Reserves lock.creator lockId (publicationGuardedPaths lock) rows rows') :
    Uniform E Q rows' where
  keys := hr.keys h.keys
  rows := by
    intro o ho
    rcases hr.new o ho with hold | ⟨hc, hl, hp, hs, hnew⟩
    · obtain ⟨owner, howner, hfor, hall⟩ := h.rows o hold
      exact ⟨owner, howner, hfor, fun p hp => hr.kept _ (hall p hp)⟩
    · rw [← hl] at hid
      refine ⟨lock, hlock, ⟨hc.symm, hid, hp⟩, fun p hp' => ?_⟩
      obtain ⟨q, hq, hqc, hqp, hql, hqs⟩ := hr.owned p hp'
      rcases hr.new q hq with hold | ⟨-, -, -, hqs', -⟩
      · -- an old row of the lock would come with an old row of the new path
        refine absurd (List.mem_map.2 ⟨_, h.row_of_mem hfree hsub (hsub _ hlock) hold ?_ hp, ?_⟩) hnew
        · rw [hql, ← hl]
          exact hid
        · exact Prod.ext hqc rfl
      · have heq : { o with guardedPath := p } = q := by
          cases o
          cases q
          simp_all
        exact heq ▸ hq

theorem Uniform.compensate (hlock : P lock) (hid : lock.lockId E = .ok lockId) :
    Uniform E Q (compensateReservedPaths rows lock.creator
      (publicationGuardedPaths lock) lockId) where
  keys := h.keys.sublist (List.filter_sublist.map _)
  rows := by
    intro o ho
    obtain ⟨hold, hkept⟩ := List.mem_filter.1 ho
    obtain ⟨owner, howner, hfor, hall⟩ := h.rows o hold
    refine ⟨owner, howner, hfor, fun p hp => List.mem_filter.2 ⟨hall p hp, ?_⟩⟩
    rw [Bool.not_eq_true'] at hkept ⊢
    by_contra hgone
    rw [Bool.not_eq_false] at hgone
    simp only [compensated, Bool.and_eq_true, beq_iff_eq, List.contains_iff_mem] at hgone
    obtain ⟨⟨⟨hc, -⟩, hl⟩, hs⟩ := hgone
    have hown := h.path_of_mem hfree hsub hlock hold (by rw [hl]; exact hid)
    have : compensated lock.creator (publicationGuardedPaths lock) lockId o := by
      simp only [compensated, Bool.and_eq_true, beq_iff_eq, List.contains_iff_mem]
      exact ⟨⟨⟨hc, hown.2.2⟩, hl⟩, hs⟩
    rw [this] at hkept
    cases hkept

theorem Uniform.promote (hlock : P lock) (hid : lock.lockId E = .ok lockId) :
    Uniform E Q (Table.updateWhere
      (promoted lock.creator (publicationGuardedPaths lock) lockId)
      (fun o => { o with status := .published }) rows) where
  keys := by
    have hmap : (Table.updateWhere
        (promoted lock.creator (publicationGuardedPaths lock) lockId)
        (fun o => { o with status := .published }) rows).map key =
        rows.map key := Table.map_updateWhere fun _ _ _ => rfl
    rw [hmap]
    exact h.keys
  rows := by
    intro q hq
    obtain ⟨o, ho, hcase⟩ := Table.mem_updateWhere.1 hq
    obtain ⟨owner, howner, hfor, hall⟩ := h.rows o ho
    rcases hcase with ⟨hprom, rfl⟩ | ⟨hkept, rfl⟩
    · refine ⟨owner, howner, hfor, fun p hp => ?_⟩
      refine Table.mem_updateWhere.2 ⟨_, hall p hp, .inl ⟨?_, rfl⟩⟩
      simp only [promoted, Bool.and_eq_true, beq_iff_eq, List.contains_iff_mem]
        at hprom ⊢
      obtain ⟨⟨hc, -⟩, hl⟩ := hprom
      have hid' : lock.lockId E = .ok o.lockId := by rw [hl]; exact hid
      obtain rfl := hfree.apart owner lock o.lockId (hsub _ howner) hlock hfor.2.1 hid'
      exact ⟨⟨hc, hp⟩, hl⟩
    · refine ⟨owner, howner, hfor, fun p hp => ?_⟩
      refine Table.mem_updateWhere.2 ⟨_, hall p hp, .inr ⟨?_, rfl⟩⟩
      by_contra hprom
      rw [Bool.not_eq_false] at hprom
      simp only [promoted, Bool.and_eq_true, beq_iff_eq, List.contains_iff_mem] at hprom
      obtain ⟨⟨hc, -⟩, hl⟩ := hprom
      have hown := h.path_of_mem hfree hsub hlock ho (by rw [hl]; exact hid)
      have : promoted lock.creator (publicationGuardedPaths lock) lockId q := by
        simp only [promoted, Bool.and_eq_true, beq_iff_eq, List.contains_iff_mem]
        exact ⟨⟨hc, hown.2.2⟩, hl⟩
      rw [this] at hkept
      cases hkept

end

/-! ## The locks that a run carries -/

/-- The call works on a lock of the run, and holds paths of the requested one. -/
structure CreatePhase.Carries (E : Externals) (P : ContentLock → Prop) (requested : ContentLock)
    (phase : CreatePhase) : Prop where
  lock : ∀ lock lockId, phase.lock? = some (lock, lockId) → P lock ∧ lock.lockId E = .ok lockId
  held : ∀ lockId, phase.held? = some lockId → requested.lockId E = .ok lockId

/-- Rows of the requested locks, and intents of locks of the run. -/
structure TablesOf (E : Externals) (P Q : ContentLock → Prop) (t : PublicationTables) : Prop where
  uniform : Uniform E Q t.ownership
  intents : ∀ i ∈ t.intents, P i.originalContentLock ∧ i.originalContentLock.creator = i.creator ∧
    i.originalContentLock.lockId E = .ok i.lockId

structure RetryInvariant (E : Externals) (P Q : ContentLock → Prop) (s : PublishState) : Prop where
  tables : TablesOf E P Q s.stores.tables
  published : ∀ creator lockId lock, s.stores.published creator lockId = some lock → P lock
  inFlight : ∀ w ∈ s.stores.inFlight, P w.lock
  calls : ∀ c ∈ s.calls, Q c.requested ∧ CreatePhase.Carries E P c.requested c.phase

variable {s : PublishState} {c : CreateCall} {i : ℕ}

variable {phase : CreatePhase} {stores : PublishStores} {r : OperationResult}
  {t t' : PublicationTables} {creator : CreatorPubky} {a : Bool} {token : Uuid}

theorem CreatePhase.carries_of_none (hlock : phase.lock? = none)
    (hheld : phase.held? = none) : Carries E P c.requested phase where
  lock := by
    intro lock lockId h
    cases hlock.symm.trans h
  held := by
    intro lockId h
    cases hheld.symm.trans h

theorem CreatePhase.carries_lock (h : P lock ∧ lock.lockId E = .ok lockId)
    (hlock : phase.lock? = some (lock, lockId)) (hheld : phase.held? = none) :
    Carries E P c.requested phase where
  lock := by
    intro lock' lockId' h'
    cases hlock.symm.trans h'
    exact h
  held := by
    intro lockId h'
    cases hheld.symm.trans h'

section
variable (hinv : RetryInvariant E P Q s) (hc : s.calls[i]? = some c)
include hinv hc

theorem retryInvariant_setPhase (htables : TablesOf E P Q stores.tables)
    (hpublished : ∀ creator lockId lock, stores.published creator lockId = some lock → P lock)
    (hinFlight : ∀ w ∈ stores.inFlight, P w.lock)
    (hcarries : Carries E P c.requested phase) :
    RetryInvariant E P Q (s.setPhase i c stores phase) where
  tables := htables
  published := hpublished
  inFlight := hinFlight
  calls := by
    intro d hd
    rcases List.mem_or_eq_of_mem_set hd with hd | rfl
    · exact hinv.calls d hd
    · exact ⟨(hinv.calls c (List.mem_of_getElem? hc)).1, hcarries⟩

theorem retryInvariant_read (hcarries : Carries E P c.requested phase) :
    RetryInvariant E P Q (s.setPhase i c s.stores phase) :=
  retryInvariant_setPhase hinv hc hinv.tables hinv.published hinv.inFlight hcarries

theorem retryInvariant_operate {α : Type} {op : Except ApplicationError (α × PublicationTables)}
    {next : Except ApplicationError α → CreatePhase}
    (hop : ∀ a t, op = .ok (a, t) → TablesOf E P Q t)
    (hcarries : ∀ a, Carries E P c.requested (next a))
    (h : s.stores.operate r op next = (stores, phase)) :
    RetryInvariant E P Q (s.setPhase i c stores phase) := by
  cases h
  refine retryInvariant_setPhase hinv hc ?_ hinv.published hinv.inFlight (hcarries _)
  rcases r.apply_tables s.stores.tables op with h | ⟨a, h⟩
  · rw [h]
    exact hinv.tables
  · exact hop a _ h

end

/-! ## Operations -/

theorem TablesOf.reconcile (ht : TablesOf E P Q t) {paths : List String}
    (h : t.reconcilePublication E creator lockId lock paths = .ok (a, t')) : TablesOf E P Q t' := by
  unfold reconcilePublication at h
  split at h
  · cases h
    exact ht
  · split at h
    · split at h
      · cases h
        exact ⟨ht.uniform, fun i hi => ht.intents i (List.mem_of_mem_filter hi)⟩
      · cases h
        exact ht
    · cases h
      exact ht

theorem TablesOf.markWritten (ht : TablesOf E P Q t)
    (h : t.markPublicationWritten creator lockId token = .ok (a, t')) : TablesOf E P Q t' := by
  cases h
  exact ⟨ht.uniform, Table.forall_mem_updateWhere ht.intents (fun _ _ h _ => h) fun _ _ h _ => h⟩

theorem TablesOf.abandon (ht : TablesOf E P Q t)
    (h : t.abandonPublication creator lockId token = .ok (a, t')) : TablesOf E P Q t' := by
  cases h
  exact ⟨ht.uniform, fun i hi => ht.intents i (List.mem_of_mem_filter hi)⟩

theorem TablesOf.compensate (hfree : FaithfulLocks E P) (hsub : ∀ l, Q l → P l)
    (ht : TablesOf E P Q t)
    (h : t.compensatePublication creator lockId token = .ok (a, t')) : TablesOf E P Q t' := by
  unfold compensatePublication at h
  split at h
  · cases h
    exact ht
  · rename_i i hfind
    cases h
    obtain ⟨hlock, hcreator, hid⟩ := ht.intents i (List.mem_of_find?_eq_some hfind)
    obtain ⟨hkc, hkl⟩ := Prod.mk.inj (key_of_uncompleted (List.find?_some hfind))
    rw [hkl] at hid
    rw [hkc] at hcreator
    refine ⟨?_, fun i hi => ht.intents i (List.mem_of_mem_filter hi)⟩
    rw [← hcreator]
    exact ht.uniform.compensate hfree hsub hlock hid

theorem TablesOf.begin (hfree : FaithfulLocks E P) (ht : TablesOf E P Q t) {a : Unit}
    (hlock : P lock) (hid : lock.lockId E = .ok lockId) (hcreator : lock.creator = creator)
    (h : t.beginPublication E creator lockId token lock = .ok (a, t')) : TablesOf E P Q t' := by
  obtain ⟨rfl, -⟩ := beginPublication_eq_ok h
  refine ⟨ht.uniform, List.forall_mem_cons.2 ⟨?_, ht.intents⟩⟩
  rw [hfree.stored lock hlock]
  exact ⟨hlock, hcreator, hid⟩

theorem TablesOf.recovered (ht : TablesOf E P Q t) {requested original : ContentLock}
    (h : t.recoverPublication E creator lockId requested = .ok (.writeCompleted token original)) :
    P original ∧ original.lockId E = .ok lockId := by
  obtain ⟨i, hi, rfl, hmatch⟩ := recoverPublication_writeCompleted h
  simp only [publicationIntentMatchesRequest, Bool.and_eq_true, beq_iff_eq] at hmatch
  exact ⟨(ht.intents i hi).1, hmatch.1.2⟩

/-! ## Steps -/

/-- **One operation of a call** keeps the locks of the run together. -/
theorem retryInvariant_advance (hfree : FaithfulLocks E P) (hsub : ∀ l, Q l → P l)
    (hknown : PublishInvariant E s) (hinv : RetryInvariant E P Q s) (hc : s.calls[i]? = some c)
    (hsame : c.Same) (h : c.advance E s.stores r token = some (stores, phase)) :
    RetryInvariant E P Q (s.setPhase i c stores phase) := by
  obtain ⟨hasked, hcarries⟩ := hinv.calls c (List.mem_of_getElem? hc)
  have hreq := hsub _ hasked
  have hknows := hknown.knows c (List.mem_of_getElem? hc)
  have herror : ∀ e, Carries E P c.requested (.finished (.error e)) :=
    fun _ => carries_of_none rfl rfl
  have hfirst : ∀ lockId, c.requested.lockId E = .ok lockId →
      Carries E P c.requested (.reserving c.requested lockId) :=
    fun _ hid => carries_lock ⟨hreq, hid⟩ rfl rfl
  obtain ⟨requested, before⟩ := c
  cases before with
  | readingOwnership seen =>
    cases h
    refine retryInvariant_read hinv hc (answered_cases herror fun t _ => ?_)
    refine readPath_cases (fun _ _ => carries_of_none rfl rfl) fun l _ _ => ?_
    exact afterOwnership_cases herror (fun _ => hfirst)
      fun _ _ => carries_of_none rfl rfl
  | recovering ownership lockId =>
    cases h
    refine retryInvariant_read hinv hc (answered_cases herror fun a ha => ?_)
    refine afterRecovery_cases herror (carries_of_none rfl rfl) ?_
    rintro k original rfl
    exact carries_lock (hinv.tables.recovered (OperationResult.read_eq_ok ha)) rfl rfl
  | rereadingOwnership ownership lockId seen =>
    cases h
    refine retryInvariant_read hinv hc (answered_cases herror fun t _ => ?_)
    refine readPath_cases (fun _ _ => carries_of_none rfl rfl) fun l _ _ => ?_
    exact afterReread_cases herror (fun _ => hfirst)
      (carries_of_none rfl rfl)
  | readingWritten status lockId original =>
    have hlock := hcarries.lock original lockId rfl
    cases h
    refine retryInvariant_read hinv hc (answered_cases herror fun a _ => ?_)
    exact afterReadWritten_cases herror
      fun _ => carries_lock hlock rfl rfl
  | readingPublished status lockId =>
    cases h
    refine retryInvariant_read hinv hc (answered_cases herror fun a ha => ?_)
    refine afterReadPublished_cases herror fun existing hexisting hid _ => ?_
    have hpublished := Except.ok.inj (OperationResult.read_eq_ok ha)
    exact carries_lock
      ⟨hinv.published _ _ existing (hpublished.trans hexisting), hid⟩ rfl rfl
  | recoveringAgain status lock lockId =>
    have hlock := hcarries.lock lock lockId rfl
    cases h
    refine retryInvariant_read hinv hc (answered_cases herror fun a ha => ?_)
    refine afterSecondRecovery_cases herror
      (fun _ => carries_lock hlock rfl rfl) (carries_lock hlock rfl rfl) ?_
    rintro k original rfl
    exact carries_lock (hinv.tables.recovered (OperationResult.read_eq_ok ha)) rfl rfl
  | reconcilingRecovered status lock lockId =>
    have hlock := hcarries.lock lock lockId rfl
    refine retryInvariant_operate hinv hc (fun _ _ => hinv.tables.reconcile) (fun a => ?_)
      (Option.some.inj h)
    refine answered_cases herror fun b _ => ?_
    refine afterReconcile_cases herror ?_
    split <;> exact carries_lock hlock rfl rfl
  | reserving lock lockId =>
    obtain ⟨rfl, hid⟩ := hknows
    refine retryInvariant_operate hinv hc (fun _ t ht => ?_) (fun a => ?_) (Option.some.inj h)
    · obtain ⟨rows, hrows, ht⟩ := Checks.map_eq_ok.1 ht
      cases ht
      exact ⟨hinv.tables.uniform.reserve hfree hsub hasked hid
        (reserves_of_reservePaths hrows), hinv.tables.intents⟩
    · refine answered_cases herror fun _ _ => ⟨?_, ?_⟩
      · rintro _ _ ⟨⟩
        exact ⟨hreq, hid⟩
      · rintro _ ⟨⟩
        exact hid
  | beginning newly lock lockId =>
    have hlock := hcarries.lock lock lockId rfl
    have hcreator := (hsame lock lockId rfl).creator_eq
    refine retryInvariant_operate hinv hc
      (fun _ _ => hinv.tables.begin hfree hlock.1 hlock.2 hcreator) (fun a => ?_)
      (Option.some.inj h)
    cases a with
    | ok a => exact carries_lock hlock rfl rfl
    | error e =>
      cases newly with
      | false => exact herror e
      | true =>
        exact ⟨by rintro _ _ ⟨⟩, fun lockId' hheld => hcarries.held lockId' hheld⟩
  | compensatingPaths lockId error =>
    have hid := hcarries.held lockId rfl
    refine retryInvariant_operate hinv hc (fun _ t ht => ?_) (fun a => herror error)
      (Option.some.inj h)
    cases ht
    exact ⟨hinv.tables.uniform.compensate hfree hsub hreq hid, hinv.tables.intents⟩
  | writing newly lock lockId k =>
    have hlock := hcarries.lock lock lockId rfl
    cases r with
    | runs =>
      cases h
      refine retryInvariant_setPhase hinv hc hinv.tables (fun creator id l hl => ?_)
        hinv.inFlight (carries_lock hlock rfl rfl)
      simp only [PublishStores.write] at hl
      split at hl
      · cases hl
        exact hlock.1
      · exact hinv.published creator id l hl
    | fails e =>
      cases h
      refine retryInvariant_read hinv hc ?_
      cases newly <;> exact carries_of_none rfl rfl
    | lost e =>
      cases h
      exact retryInvariant_setPhase hinv hc hinv.tables hinv.published
        (List.forall_mem_cons.2 ⟨hlock.1, hinv.inFlight⟩) (herror e)
  | abandoning lockId k error attempts =>
    refine retryInvariant_operate hinv hc (fun _ _ => hinv.tables.abandon) (fun a => ?_)
      (Option.some.inj h)
    exact retried_cases herror (fun _ => carries_of_none rfl rfl)
      fun _ => herror _
  | compensating lockId k error attempts =>
    refine retryInvariant_operate hinv hc (fun _ _ => hinv.tables.compensate hfree hsub)
      (fun a => ?_) (Option.some.inj h)
    exact retried_cases herror (fun _ => carries_of_none rfl rfl)
      fun _ => herror _
  | markingWritten lock lockId k attempts =>
    have hlock := hcarries.lock lock lockId rfl
    refine retryInvariant_operate hinv hc (fun _ _ => hinv.tables.markWritten) (fun a => ?_)
      (Option.some.inj h)
    refine retried_cases herror (fun _ => carries_lock hlock rfl rfl)
      fun committed => ?_
    cases committed with
    | false => exact herror _
    | true => exact carries_lock hlock rfl rfl
  | reconciling lock lockId =>
    have hlock := hcarries.lock lock lockId rfl
    refine retryInvariant_operate hinv hc (fun _ _ => hinv.tables.reconcile) (fun a => ?_)
      (Option.some.inj h)
    refine answered_cases herror fun b _ => ?_
    exact afterReconcile_cases herror (carries_lock hlock rfl rfl)
  | markingPublished lock lockId =>
    obtain ⟨hlock, hid⟩ := hcarries.lock lock lockId rfl
    have hreqd := hsame lock lockId rfl
    refine retryInvariant_operate hinv hc (fun _ t ht => ?_)
      (fun a => answered_cases herror fun _ _ =>
        carries_lock ⟨hlock, hid⟩ rfl rfl) (Option.some.inj h)
    obtain ⟨rows, hrows, ht⟩ := Checks.map_eq_ok.1 ht
    cases ht
    rw [guardedPaths, ← hreqd.creator_eq, ← hreqd.paths_eq] at hrows
    rw [markPathsPublished_eq hrows]
    exact ⟨hinv.tables.uniform.promote hfree hsub hlock hid, hinv.tables.intents⟩
  | finished result =>
    cases h
  | stopped =>
    cases h

/-! ## Runs of the locks -/

def Asked (events : List PublishEvent) (lock : ContentLock) : Prop :=
  ∃ request resources now, PublishEvent.call request resources now ∈ events ∧
    lock = request.contentLock now

/-- **Every event** keeps the locks of the run together. -/
theorem retryInvariant_exec {C : Codec} {E : Externals} {P Q : ContentLock → Prop}
    (hfree : FaithfulLocks E P) (hsub : ∀ l, Q l → P l) {s s' : PublishState} {e : PublishEvent}
    (hasks : ∀ lock, Asked [e] lock → Q lock) (hknown : PublishInvariant E s)
    (hsame : ∀ c ∈ s.calls, c.Same) (hinv : RetryInvariant E P Q s)
    (h : s.exec C E e = some s') : RetryInvariant E P Q s' := by
  cases e with
  | call request resources now =>
    cases h
    refine ⟨hinv.tables, hinv.published, hinv.inFlight, fun d hd => ?_⟩
    rcases List.mem_append.1 hd with hd | hd
    · exact hinv.calls d hd
    · rw [List.mem_singleton.1 hd]
      refine ⟨hasks _ ⟨request, resources, now, List.mem_cons_self, rfl⟩, ?_⟩
      unfold PublishState.start
      cases request.validated C E resources now <;>
        exact ⟨by rintro _ _ ⟨⟩, by rintro _ ⟨⟩⟩
  | advance i r token =>
    simp only [PublishState.exec, Option.bind_eq_some_iff, Option.map_eq_some_iff] at h
    obtain ⟨c, hc, ⟨stores, phase⟩, hadv, rfl⟩ := h
    exact retryInvariant_advance hfree hsub hknown hinv hc (hsame c (List.mem_of_getElem? hc))
      hadv
  | stop i =>
    simp only [PublishState.exec, Option.bind_eq_some_iff] at h
    obtain ⟨c, hc, h⟩ := h
    split at h
    · cases h
    · cases h
      exact retryInvariant_read hinv hc (carries_of_none rfl rfl)
  | land k =>
    simp only [PublishState.exec, Option.map_eq_some_iff] at h
    obtain ⟨w, hw, rfl⟩ := h
    refine ⟨hinv.tables, fun creator lockId lock hlock => ?_,
      fun v hv => hinv.inFlight v (List.mem_of_mem_eraseIdx hv), hinv.calls⟩
    simp only [PublishStores.write] at hlock
    split at hlock
    · cases hlock
      exact hinv.inFlight w (List.mem_of_getElem? hw)
    · exact hinv.published creator lockId lock hlock

end PubkyLocks
