/-
  Retries of `CreateContentLock::execute` for locks that are on the homeserver.

  A call asks for a lock that was written before, and runs alone.  It finds the
  lock through the rows of its paths, reads its creation time from the intent or
  from the homeserver, and completes what the earlier publication left undone.
-/
import PubkyLocks.Publishing.AloneCalls
import PubkyLocks.Publishing.Landed

namespace PubkyLocks

open CreateCall PublicationTables PublicationIntent

/-- The lock of an earlier publication: every path of the request has a row of it,
    and its intent carries it. -/
structure OwnedLock (E : Externals) (stores : PublishStores) (status : ContentLockOwnershipStatus)
    (lock requested : ContentLock) (lockId : LockId) : Prop where
  same : lock.SameRequest requested
  id : lock.lockId E = .ok lockId
  stored : lock.readBack E = lock
  nonempty : publicationGuardedPaths lock ≠ []
  rows : ∀ p ∈ publicationGuardedPaths lock,
    Ownership.getPathOwnership stores.tables.ownership lock.creator p =
      some ⟨lock.creator, p, lockId, status⟩
  original : ∀ i, stores.tables.intent? lock.creator lockId = some i → i.originalContentLock = lock

/-- It is on the homeserver and not being deleted. -/
structure LandedLock (E : Externals) (stores : PublishStores) (status : ContentLockOwnershipStatus)
    (lock requested : ContentLock) (lockId : LockId) : Prop
    extends OwnedLock E stores status lock requested lockId where
  nodup : (publicationGuardedPaths lock).Nodup
  published : stores.published lock.creator lockId = some lock
  kept : stores.tables.deletionExists lock.creator lockId = false
  keys : (stores.tables.intents.map PublicationIntent.key).Nodup

variable {E : Externals} {stores : PublishStores} {status : ContentLockOwnershipStatus}
  {lock requested : ContentLock} {lockId : LockId} {token : Uuid}

/-! ## Recovery -/

namespace OwnedLock

variable (h : OwnedLock E stores status lock requested lockId)
include h

theorem lock_eq : { requested with createdAt := lock.createdAt } = lock :=
  Eq.symm h.same

theorem hasRows : stores.tables.HasRows lock lockId :=
  fun p hp => ⟨_, List.mem_of_find?_eq_some (h.rows p hp), rfl, rfl, rfl⟩

theorem reads : (publicationGuardedPaths requested).map
      (Ownership.getPathOwnership stores.tables.ownership requested.creator) =
      ownedRows status lock lockId := by
  rw [← h.same.paths_eq, ← h.same.creator_eq]
  exact List.map_congr_left h.rows

theorem recover_eq (hkept : stores.tables.deletionExists lock.creator lockId = false)
    {asked : ContentLock} (hasked : lock.SameRequest asked) :
    stores.tables.recoverPublication E lock.creator lockId asked =
      .ok (match stores.tables.intent? lock.creator lockId with
        | none => .none
        | some i => if i.written then .writeCompleted i.publicationToken lock
            else .pending i.publicationToken lock) := by
  have hmatches : publicationIntentMatchesRequest E lock.creator lockId lock asked = true := by
    have heq : { asked with createdAt := lock.createdAt } = lock := Eq.symm hasked
    simp [publicationIntentMatchesRequest, h.id, heq]
  unfold recoverPublication
  rw [hkept]
  cases hintent : stores.tables.intent? lock.creator lockId with
  | none => rfl
  | some i =>
    rw [← h.original i hintent] at hmatches ⊢
    simp [hmatches]

theorem afterReadPublished_eq (phase : CreatePhase) :
    afterReadPublished E ⟨requested, phase⟩ status lockId (some lock) =
      .recoveringAgain status lock lockId := by
  simp only [afterReadPublished, h.id, h.lock_eq, ne_eq, not_true_eq_false, or_self,
    if_false]

theorem alone_recovering : AloneRun E requested token (stores, .readingOwnership [])
      (stores, .recovering (ownedRows status lock lockId) lockId) := by
  rw [← afterOwnership_ownedRows E ⟨requested, .readingOwnership []⟩ h.nonempty, ← h.reads]
  exact alone_reads .readingOwnership
    (afterOwnership E ⟨requested, .readingOwnership []⟩) fun seen => rfl

theorem alone_recovered {recovered : Except ApplicationError PublicationRecovery}
    (hr : stores.tables.recoverPublication E lock.creator lockId requested = recovered) :
    AloneRun E requested token (stores, .readingOwnership [])
      (stores, answered (afterRecovery
        ⟨requested, .recovering (ownedRows status lock lockId) lockId⟩
        (ownedRows status lock lockId) lockId) recovered) := by
  refine h.alone_recovering.tail ?_
  simp only [AloneStep, advance, ← h.same.creator_eq, hr]
  rfl

/-- **A retry beside an unfinished write** is refused. -/
theorem pending (hkept : stores.tables.deletionExists lock.creator lockId = false)
    {i : PublicationIntent} (hi : stores.tables.intent? lock.creator lockId = some i)
    (hw : i.written = false) :
    AloneRun E requested token (stores, .readingOwnership [])
      (stores, .finished (.error .contentLockPublicationInProgress)) := by
  have hrecover := h.recover_eq hkept h.same
  rw [hi] at hrecover
  simp only [hw] at hrecover
  exact h.alone_recovered hrecover

end OwnedLock

namespace LandedLock

/-! ## The end of a publication -/

/-- The stores at the end: the lock has no intent, and its paths are published. -/
def Settled (stores : PublishStores) (lock : ContentLock) (lockId : LockId) : Prop :=
  stores.tables.intent? lock.creator lockId = none ∧ stores.tables.HasPublished lock lockId

section
variable (h : LandedLock E stores status lock requested lockId)
include h

theorem alone_marking (token : Uuid)
    (reconciled : PublishStores) (hown : reconciled.tables.ownership = stores.tables.ownership)
    (hnone : reconciled.tables.intent? lock.creator lockId = none) :
    ∃ stores', AloneStep E requested token (reconciled, .markingPublished lock lockId)
      (stores', .finished (.ok ⟨lockId, lock⟩)) ∧ Settled stores' lock lockId := by
  have hrows : reconciled.tables.HasRows lock lockId := by
    unfold HasRows
    rw [hown]
    exact h.hasRows
  have howns : ∀ p ∈ publicationGuardedPaths lock, ∃ o ∈ reconciled.tables.ownership,
      Ownership.owns lock.creator p lockId o := by
    intro p hp
    obtain ⟨o, ho, hc, hpath, hid⟩ := hrows p hp
    exact ⟨o, ho, by simp [Ownership.owns, hc, hpath, hid]⟩
  obtain ⟨rows, hok⟩ := Ownership.markPathsPublished_isOk howns
  have hmark : reconciled.tables.withOwnership (Ownership.markPathsPublished
      reconciled.tables.ownership lock.creator (publicationGuardedPaths lock) lockId) =
      .ok ((), { reconciled.tables with ownership := rows }) := by
    rw [hok]
    rfl
  refine ⟨{ reconciled with tables := { reconciled.tables with ownership := rows } }, ?_, hnone,
    hrows.promote hmark⟩
  simp only [AloneStep, advance, guardedPaths, ← h.same.creator_eq,
    ← h.same.paths_eq, hmark]
  rfl

theorem reconcile_eq {t : PublicationTables} {i : PublicationIntent}
    (hkeys : (t.intents.map key).Nodup)
    (hi : t.intent? lock.creator lockId = some i) (hw : i.written)
    (horiginal : i.originalContentLock = lock) :
    ∃ t', t.reconcilePublication E lock.creator lockId lock (publicationGuardedPaths lock) =
      .ok (true, t') ∧ t'.ownership = t.ownership ∧ t'.intent? lock.creator lockId = none := by
  have hmatches : publicationReconciliationMatches E lock.creator lockId lock
      (publicationGuardedPaths lock) = true := by
    simp [publicationReconciliationMatches, h.id, h.nodup.dedup]
  refine ⟨{ t with intents := t.intents.filter fun i =>
    !(i.creator == lock.creator && i.lockId == lockId && i.written) }, ?_, rfl, ?_⟩
  · unfold reconcilePublication
    rw [hmatches, hi]
    simp [hw, horiginal]
  · -- another intent of the lock would have the same key
    refine List.find?_eq_none.2 fun j hj hkey => ?_
    obtain ⟨hmem, hleft⟩ := List.mem_filter.1 hj
    have hfound := List.find?_some hi
    simp only [Bool.and_eq_true, beq_iff_eq] at hkey hfound
    have hji : j = i := List.inj_on_of_nodup_map hkeys hmem (List.mem_of_find?_eq_some hi)
      (Prod.ext (hkey.1.trans hfound.1.symm) (hkey.2.trans hfound.2.symm))
    subst hji
    simp [hkey.1, hkey.2, hw] at hleft

theorem alone_reconciling (token : Uuid)
    {marked : PublishStores} {i : PublicationIntent} {phase : CreatePhase}
    (hown : marked.tables.ownership = stores.tables.ownership)
    (hkeys : (marked.tables.intents.map key).Nodup)
    (hi : marked.tables.intent? lock.creator lockId = some i) (hw : i.written)
    (horiginal : i.originalContentLock = lock)
    (hphase : phase = .reconciling lock lockId ∨
      phase = .reconcilingRecovered .reserved lock lockId) :
    ∃ stores', AloneRun E requested token (marked, phase)
      (stores', .finished (.ok ⟨lockId, lock⟩)) ∧ Settled stores' lock lockId := by
  obtain ⟨t, hok, ht, hnone⟩ := h.reconcile_eq hkeys hi hw horiginal
  obtain ⟨stores', hmark, hsettled⟩ :=
    h.alone_marking token { marked with tables := t } (ht.trans hown) hnone
  refine ⟨stores', .head ?_ (.single hmark), hsettled⟩
  rcases hphase with rfl | rfl <;>
    simp only [AloneStep, advance, guardedPaths, ← h.same.creator_eq,
      ← h.same.paths_eq, hok] <;> rfl

theorem resumes_written
    {i : PublicationIntent} (hi : stores.tables.intent? lock.creator lockId = some i)
    (hw : i.written) :
    ∃ stores', AloneRun E requested token (stores, .readingOwnership [])
      (stores', .finished (.ok ⟨lockId, lock⟩)) ∧ Settled stores' lock lockId := by
  have hrecover := h.recover_eq h.kept h.same
  rw [hi] at hrecover
  simp only [hw, if_true] at hrecover
  have hread : AloneRun E requested token (stores, .readingOwnership [])
      (stores, .reconcilingRecovered status lock lockId) := by
    refine (h.alone_recovered hrecover).tail ?_
    simp only [afterRecovery, uniformStatus_ownedRows h.nonempty, AloneStep,
      advance, ← h.same.creator_eq, h.published, OperationResult.read,
      answered, afterReadWritten, if_true]
  cases status with
  | reserved =>
    obtain ⟨stores', hend, hsettled⟩ := h.alone_reconciling token rfl h.keys hi hw
      (h.original i hi) (.inr rfl)
    exact ⟨stores', hread.trans hend, hsettled⟩
  | published =>
    obtain ⟨t, hok, ht, hnone⟩ := h.reconcile_eq h.keys hi hw (h.original i hi)
    refine ⟨{ stores with tables := t }, hread.tail ?_, hnone, fun p hp => ?_⟩
    · simp only [AloneStep, advance, guardedPaths, ← h.same.creator_eq,
        ← h.same.paths_eq, hok]
      rfl
    · show _ ∈ t.ownership
      rw [ht]
      exact List.mem_of_find?_eq_some (h.rows p hp)

theorem alone_recoveringAgain (hnone : stores.tables.intent? lock.creator lockId = none) :
    AloneRun E requested token (stores, .readingOwnership [])
      (stores, .recoveringAgain status lock lockId) := by
  have hrecover := h.recover_eq h.kept h.same
  rw [hnone] at hrecover
  have hreread : AloneRun E requested token
      (stores, .rereadingOwnership (ownedRows status lock lockId) lockId [])
      (stores, afterReread E ⟨requested, .readingOwnership []⟩
        (ownedRows status lock lockId) lockId ((publicationGuardedPaths requested).map
          (Ownership.getPathOwnership stores.tables.ownership requested.creator))) :=
    alone_reads _ (afterReread E ⟨requested, .readingOwnership []⟩ _ lockId)
      fun seen => rfl
  rw [h.reads, afterReread_ownedRows E _ h.nonempty] at hreread
  refine ((h.alone_recovered hrecover).trans hreread).tail ?_
  simp only [AloneStep, advance, ← h.same.creator_eq, h.published,
    OperationResult.read, answered, h.afterReadPublished_eq]

/-- The retry of a lock without an intent: it publishes the lock again, unless its
    paths are published. -/
theorem resumes_none (hnone : stores.tables.intent? lock.creator lockId = none)
    (hfresh : ∀ i ∈ stores.tables.intents, i.publicationToken ≠ token) :
    ∃ stores', AloneRun E requested token (stores, .readingOwnership [])
      (stores', .finished (.ok ⟨lockId, lock⟩)) ∧ Settled stores' lock lockId := by
  have hread : AloneRun E requested token (stores, .readingOwnership [])
      (stores, .recoveringAgain status lock lockId) := h.alone_recoveringAgain hnone
  have hrecover := h.recover_eq h.kept (ContentLock.SameRequest.refl lock)
  rw [hnone] at hrecover
  have hstep : AloneStep E requested token (stores, .recoveringAgain status lock lockId)
      (stores, if status = .published then .finished (.ok ⟨lockId, lock⟩)
        else .beginning false lock lockId) := by
    simp only [AloneStep, advance, ← h.same.creator_eq, hrecover]
    rfl
  cases status with
  | published =>
    exact ⟨stores, hread.tail hstep, hnone, fun p hp => List.mem_of_find?_eq_some (h.rows p hp)⟩
  | reserved =>
    have hkeys : ((stores.written lock lockId token).tables.intents.map
        key).Nodup := by
      have hmap : (stores.written lock lockId token).tables.intents.map key =
          (lock.creator, lockId) :: stores.tables.intents.map key :=
        Table.map_updateWhere fun _ _ _ => rfl
      rw [hmap, List.nodup_cons]
      refine ⟨fun hmem => ?_, h.keys⟩
      obtain ⟨i, hi, hkey⟩ := List.mem_map.1 hmem
      obtain ⟨hc, hl⟩ := Prod.mk.inj hkey
      exact List.find?_eq_none.1 hnone i hi (by simp [hc, hl])
    have hi : (stores.written lock lockId token).tables.intent? lock.creator lockId =
        some ⟨lock.creator, lockId, token, lock, true⟩ := by
      simp [PublishStores.written, intent?, Table.updateWhere,
        holdsToken]
    have hown : (stores.written lock lockId token).tables.ownership = stores.tables.ownership :=
      rfl
    obtain ⟨stores', hend, hsettled⟩ := h.alone_reconciling token hown hkeys hi rfl rfl (.inl rfl)
    have hbegun := alone_beginning h.same.creator_eq.symm h.id h.stored h.kept hnone hfresh
    exact ⟨stores', ((hread.tail hstep).trans hbegun).trans hend, hsettled⟩

/-- **A retry of a landed lock** returns it, with its intent removed and its paths
    published, if no write of it is unmarked. -/
theorem resumes (hfresh : ∀ i ∈ stores.tables.intents, i.publicationToken ≠ token)
    (hwritten : ∀ i, stores.tables.intent? lock.creator lockId = some i → i.written) :
    ∃ stores', AloneRun E requested token (stores, .readingOwnership [])
      (stores', .finished (.ok ⟨lockId, lock⟩)) ∧ Settled stores' lock lockId := by
  cases hi : stores.tables.intent? lock.creator lockId with
  | none => exact h.resumes_none hi hfresh
  | some i => exact h.resumes_written hi (hwritten i hi)

end

end LandedLock

end PubkyLocks
