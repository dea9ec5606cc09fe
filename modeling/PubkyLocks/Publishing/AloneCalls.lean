/-
  Calls of `CreateContentLock::execute` that run alone, and the rows they find when
  one lock owns all of their paths.
-/
import PubkyLocks.Publishing.CarriedLocks

namespace PubkyLocks

open PublicationTables PublishState Ownership

/-! ## A call that runs alone -/

/-- A call makes its next operation, which runs. -/
def AloneStep (E : Externals) (requested : ContentLock) (token : Uuid)
    (a b : PublishStores × CreatePhase) : Prop :=
  CreateCall.advance E ⟨requested, a.2⟩ a.1 .runs token = some b

/-- A call makes operations one after the other, all of which run. -/
abbrev AloneRun (E : Externals) (requested : ContentLock) (token : Uuid) :
    PublishStores × CreatePhase → PublishStores × CreatePhase → Prop :=
  Relation.ReflTransGen (AloneStep E requested token)

section
variable {E : Externals} {requested : ContentLock} {token : Uuid}

variable {a b : PublishStores × CreatePhase}

theorem runAlone_of_steps (C : Codec) (calls : List CreateCall)
    (h : AloneRun E requested token a b) :
    ∃ n, runAlone C E calls.length token n ⟨a.1, calls ++ [⟨requested, a.2⟩]⟩ =
      ⟨b.1, calls ++ [⟨requested, b.2⟩]⟩ := by
  induction h using Relation.ReflTransGen.head_induction_on with
  | refl => exact ⟨0, rfl⟩
  | @head a' b' hstep _ ih =>
    obtain ⟨n, hn⟩ := ih
    refine ⟨n + 1, ?_⟩
    have hget : (calls ++ [(⟨requested, a'.2⟩ : CreateCall)])[calls.length]? =
        some ⟨requested, a'.2⟩ := by simp
    have hset : (calls ++ [(⟨requested, a'.2⟩ : CreateCall)]).set calls.length
        ⟨requested, b'.2⟩ = calls ++ [⟨requested, b'.2⟩] := by simp
    have hexec : exec C E ⟨a'.1, calls ++ [⟨requested, a'.2⟩]⟩
        (.advance calls.length .runs token) = some ⟨b'.1, calls ++ [⟨requested, b'.2⟩]⟩ := by
      unfold AloneStep at hstep
      simp only [exec, hget, Option.bind_some, hstep, Option.map_some,
        setPhase, hset]
    rw [runAlone, hexec]
    exact hn

theorem readPath_take (c : CreateCall) (t : PublicationTables)
    (again done : List (Option ContentLockOwnership) → CreatePhase) {k : ℕ}
    {rows : List (Option ContentLockOwnership)}
    (hrows : rows = c.guardedPaths.map
      (getPathOwnership t.ownership c.requested.creator))
    (hk : k ≤ c.guardedPaths.length) :
    c.readPath t (rows.take k) again done =
      if k + 1 < c.guardedPaths.length then again (rows.take (k + 1)) else done rows := by
  have hlength : rows.length = c.guardedPaths.length := by rw [hrows, List.length_map]
  have htake : (rows.take k).length = k := by
    rw [List.length_take, hlength]
    omega
  unfold CreateCall.readPath
  rw [htake]
  by_cases hlt : k < c.guardedPaths.length
  · have hnext : rows.take k ++ [getPathOwnership t.ownership c.requested.creator
        c.guardedPaths[k]] = rows.take (k + 1) := by
      rw [List.take_succ_eq_append_getElem (by omega)]
      simp [hrows]
    rw [List.getElem?_eq_getElem hlt]
    dsimp only
    rw [hnext, List.length_take, hlength, Nat.min_eq_left hlt]
    split
    · rfl
    · rw [List.take_of_length_le (by omega)]
  · rw [List.getElem?_eq_none (by omega), if_neg (by omega), List.take_of_length_le (by omega)]

/-- **The loops over the paths** collect the rows of all paths. -/
theorem alone_reads {stores : PublishStores}
    (again done : List (Option ContentLockOwnership) → CreatePhase)
    (hagain : ∀ seen, AloneStep E requested token (stores, again seen)
      (stores, CreateCall.readPath ⟨requested, again seen⟩ stores.tables seen again done)) :
    AloneRun E requested token (stores, again [])
      (stores, done ((publicationGuardedPaths requested).map
        (getPathOwnership stores.tables.ownership requested.creator))) := by
  generalize hrows : (publicationGuardedPaths requested).map
    (getPathOwnership stores.tables.ownership requested.creator) = rows
  have hloop : ∀ n k, n + k = (publicationGuardedPaths requested).length →
      AloneRun E requested token (stores, again (rows.take k))
        (stores, done rows) := by
    intro n
    -- the induction is on the number of paths that are left
    induction n with
    | zero =>
      intro k hk
      have hle : k ≤ (publicationGuardedPaths requested).length := by omega
      have hlast : ¬ k + 1 < (publicationGuardedPaths requested).length := by omega
      refine .head (hagain _) ?_
      rw [readPath_take ⟨requested, _⟩ stores.tables again done hrows.symm hle]
      split
      · contradiction
      · exact .refl
    | succ n ih =>
      intro k hk
      have hle : k ≤ (publicationGuardedPaths requested).length := by omega
      refine .head (hagain _) ?_
      rw [readPath_take ⟨requested, _⟩ stores.tables again done hrows.symm hle]
      split
      · exact ih (k + 1) (by omega)
      · exact .refl
  exact hloop _ 0 (Nat.add_zero _)

end

/-! ## A publication from its begin to its write -/

/-- The stores once a lock is written with an intent that says so. -/
def PublishStores.written (stores : PublishStores) (lock : ContentLock) (lockId : LockId)
    (token : Uuid) : PublishStores :=
  { stores.write ⟨lock.creator, lockId, lock⟩ with
    tables := { stores.tables with
      intents := Table.updateWhere (PublicationTables.holdsToken lock.creator lockId token)
        (fun i => { i with written := true })
        (⟨lock.creator, lockId, token, lock, false⟩ :: stores.tables.intents) } }

theorem alone_beginning {E : Externals} {requested lock : ContentLock} {token : Uuid}
    {stores : PublishStores} {lockId : LockId} (hcreator : requested.creator = lock.creator)
    (hid : lock.lockId E = .ok lockId) (hstored : lock.readBack E = lock)
    (hdel : stores.tables.deletionExists lock.creator lockId = false)
    (hnone : stores.tables.intent? lock.creator lockId = none)
    (hfresh : ∀ i ∈ stores.tables.intents, i.publicationToken ≠ token) :
    AloneRun E requested token (stores, .beginning false lock lockId)
      (stores.written lock lockId token, .reconciling lock lockId) := by
  have hself : publicationIntentMatchesRequest E lock.creator lockId lock lock = true := by
    simp [publicationIntentMatchesRequest, hid]
  have hany : (stores.tables.intents.any fun i =>
      (i.creator == lock.creator && i.lockId == lockId) || i.publicationToken == token) =
      false := by
    rw [List.any_eq_false]
    intro i hi
    have hkey := List.find?_eq_none.1 hnone i hi
    have htoken := hfresh i hi
    simp_all
  have hbegin : stores.tables.beginPublication E lock.creator lockId token lock = .ok ((),
      { stores.tables with
        intents := ⟨lock.creator, lockId, token, lock, false⟩ :: stores.tables.intents }) := by
    unfold beginPublication
    rw [hself, hdel, hany, hstored]
    rfl
  generalize hbegun : ({ stores with tables := { stores.tables with
    intents := ⟨lock.creator, lockId, token, lock, false⟩ :: stores.tables.intents } } :
      PublishStores) = begun
  refine .head (b := (begun, .writing false lock lockId token)) ?_ ?_
  · simp only [AloneStep, CreateCall.advance, hcreator, hbegin, ← hbegun]
    rfl
  refine .head (b := (begun.write ⟨lock.creator, lockId, lock⟩,
    .markingWritten lock lockId token 0)) ?_ ?_
  · simp only [AloneStep, CreateCall.advance, hcreator]
  refine .single ?_
  -- the token holds the intent that was just inserted
  have hheld : begun.tables.intents.any
      (holdsToken lock.creator lockId token) = true := by
    rw [← hbegun]
    simp [holdsToken]
  simp only [AloneStep, CreateCall.advance, hcreator, markPublicationWritten,
    PublishStores.write, hheld]
  rw [← hbegun]
  rfl

/-! ## Rows of one status -/

def ownedRows (status : ContentLockOwnershipStatus) (lock : ContentLock) (lockId : LockId) :
    List (Option ContentLockOwnership) :=
  (publicationGuardedPaths lock).map fun p => some ⟨lock.creator, p, lockId, status⟩

section
variable {lock : ContentLock} {lockId : LockId} {status : ContentLockOwnershipStatus}

theorem uniformStatus_ownedRows (hne : publicationGuardedPaths lock ≠ []) :
    CreateCall.uniformStatus (ownedRows status lock lockId) = status := by
  obtain ⟨p, l, hp⟩ := List.exists_cons_of_ne_nil hne
  cases status <;> simp [CreateCall.uniformStatus, CreateCall.allStatus, ownedRows, hp]

section
variable (E : Externals) (c : CreateCall) (hne : publicationGuardedPaths lock ≠ [])
include E c hne

theorem afterOwnership_ownedRows : c.afterOwnership E (ownedRows status lock lockId) =
      .recovering (ownedRows status lock lockId) lockId := by
  obtain ⟨p, l, hp⟩ := List.exists_cons_of_ne_nil hne
  have hfind : (ownedRows status lock lockId).findSome? (fun o => o.map (·.lockId)) =
      some lockId := by
    simp [ownedRows, hp]
  have hzip : (c.guardedPaths.zip (ownedRows status lock lockId)).find?
      (fun r => !r.2.any (·.lockId == lockId)) = none := by
    rw [List.find?_eq_none]
    rintro ⟨path, row⟩ hmem
    obtain ⟨q, -, rfl⟩ := List.mem_map.1 (List.of_mem_zip hmem).2
    simp
  have hall : CreateCall.allStatus status (ownedRows status lock lockId) = true := by
    simp [CreateCall.allStatus, ownedRows]
  unfold CreateCall.afterOwnership
  rw [hfind]
  dsimp only
  rw [hzip]
  cases status <;> simp [hall]

theorem afterReread_ownedRows :
    c.afterReread E (ownedRows status lock lockId) lockId (ownedRows status lock lockId) =
      .readingPublished status lockId := by
  obtain ⟨p, l, hp⟩ := List.exists_cons_of_ne_nil hne
  have hsome : (ownedRows status lock lockId).all Option.isNone = false := by simp [ownedRows, hp]
  unfold CreateCall.afterReread
  rw [hsome, uniformStatus_ownedRows hne]
  simp

end

end

end PubkyLocks
