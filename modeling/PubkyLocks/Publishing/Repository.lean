/-
  The tables behind the publication of content locks: who owns a guarded path
  (`infrastructure/postgres/content_lock_ownership.rs`), and which publications
  have begun (`infrastructure/postgres/content_lock_deletions.rs`,
  `application/ports/content_lock_deletion.rs`).

  Each repository operation is one transaction: a function that returns a value
  and the tables after its commit, or the error it is rolled back with.
-/
import Mathlib.Data.List.Dedup
import Mathlib.Data.List.Sort
import PubkyLocks.Store.Database

namespace PubkyLocks

open Checks (refuse)

/-! ## Rows -/

inductive ContentLockOwnershipStatus where
  | reserved
  | published
deriving DecidableEq, Repr

structure ContentLockOwnership where
  creator : CreatorPubky
  guardedPath : String
  lockId : LockId
  status : ContentLockOwnershipStatus
deriving DecidableEq

/-- A row of `content_lock_publication_intents`, with the lock as its JSONB column
    gives it back; `written` says that `external_write_completed_at` is set. -/
structure PublicationIntent where
  creator : CreatorPubky
  lockId : LockId
  publicationToken : Uuid
  originalContentLock : ContentLock
  written : Bool
deriving DecidableEq

def PublicationIntent.key (i : PublicationIntent) : CreatorPubky × LockId := (i.creator, i.lockId)

/-- The tables, with the locks that have a deletion job or a receipt. -/
structure PublicationTables where
  ownership : List ContentLockOwnership
  intents : List PublicationIntent
  deletions : List IntentKey

/-! ## Paths -/

def publicationGuardedPaths (lock : ContentLock) : List String :=
  (lock.primaryResource.map (·.path)).toList ++ lock.secondaryResources.entries.map Prod.fst

def sortedUniquePaths (paths : List String) : List String :=
  paths.dedup.insertionSort (· ≤ ·)

theorem mem_sortedUniquePaths {paths : List String} {p : String} :
    p ∈ sortedUniquePaths paths ↔ p ∈ paths := by
  rw [sortedUniquePaths, List.mem_insertionSort, List.mem_dedup]

/-- `publication_intent_matches_request`: the original lock belongs to the key,
    and differs from the requested one in its creation time at most. -/
def publicationIntentMatchesRequest (E : Externals) (creator : CreatorPubky) (lockId : LockId)
    (original requested : ContentLock) : Bool :=
  original.creator == creator && original.lockId E == .ok lockId &&
    { requested with createdAt := original.createdAt } == original

/-- `publication_reconciliation_matches`: the published lock belongs to the key,
    and the paths are the ones it guards. -/
def publicationReconciliationMatches (E : Externals) (creator : CreatorPubky) (lockId : LockId)
    (published : ContentLock) (paths : List String) : Bool :=
  let expected := publicationGuardedPaths published
  published.creator == creator && published.lockId E == .ok lockId &&
    expected.dedup.length == paths.length &&
    expected.all (paths.contains ·) && paths.all (expected.contains ·)

/-! ## Ownership -/

namespace Ownership

def getPathOwnership (rows : List ContentLockOwnership) (creator : CreatorPubky) (path : String) :
    Option ContentLockOwnership :=
  rows.find? fun o => o.creator == creator && o.guardedPath == path

/-- The insert of `reserve_paths` for one path, and the check after it. -/
def reservePath (creator : CreatorPubky) (lockId : LockId) (rows : List ContentLockOwnership)
    (path : String) : Except ApplicationError (List ContentLockOwnership) :=
  match getPathOwnership rows creator path with
  | none => .ok (⟨creator, path, lockId, .reserved⟩ :: rows)
  | some existing =>
    if existing.lockId ≠ lockId ∨ existing.status = .reserved then
      .error (.contentLockPathConflict path)
    else .ok rows

def reservePaths (rows : List ContentLockOwnership) (creator : CreatorPubky) (paths : List String)
    (lockId : LockId) : Except ApplicationError (List ContentLockOwnership) :=
  (sortedUniquePaths paths).foldlM (reservePath creator lockId) rows

def owns (creator : CreatorPubky) (path : String) (lockId : LockId) (o : ContentLockOwnership) :
    Bool :=
  o.creator == creator && o.guardedPath == path && o.lockId == lockId

def markPathPublished (creator : CreatorPubky) (lockId : LockId)
    (rows : List ContentLockOwnership) (path : String) :
    Except ApplicationError (List ContentLockOwnership) :=
  if rows.any (owns creator path lockId) then
    .ok (Table.updateWhere (owns creator path lockId) (fun o => { o with status := .published })
      rows)
  else .error (if (getPathOwnership rows creator path).isSome then .contentLockPathConflict path
    else .missingRecord "content_lock_ownership")

def markPathsPublished (rows : List ContentLockOwnership) (creator : CreatorPubky)
    (paths : List String) (lockId : LockId) : Except ApplicationError (List ContentLockOwnership) :=
  (sortedUniquePaths paths).foldlM (markPathPublished creator lockId) rows

/-- The rows that `compensate_reserved_paths` and `compensate_publication`
    delete. -/
def compensated (creator : CreatorPubky) (paths : List String) (lockId : LockId)
    (o : ContentLockOwnership) : Bool :=
  o.creator == creator && paths.contains o.guardedPath && o.lockId == lockId &&
    o.status == .reserved

def compensateReservedPaths (rows : List ContentLockOwnership) (creator : CreatorPubky)
    (paths : List String) (lockId : LockId) : List ContentLockOwnership :=
  rows.filter fun o => !compensated creator paths lockId o

def key (o : ContentLockOwnership) : CreatorPubky × String := (o.creator, o.guardedPath)

variable {creator : CreatorPubky} {lockId : LockId} {paths : List String}
  {rows rows' : List ContentLockOwnership}

theorem getPathOwnership_eq_none {path : String} :
    getPathOwnership rows creator path = none ↔ (creator, path) ∉ rows.map key := by
  simp only [getPathOwnership, List.find?_eq_none, Bool.and_eq_true, beq_iff_eq, List.mem_map, key,
    Prod.mk.injEq, not_exists, not_and]

theorem getPathOwnership_eq_some (hkeys : (rows.map key).Nodup) {o : ContentLockOwnership}
    (ho : o ∈ rows) : getPathOwnership rows o.creator o.guardedPath = some o := by
  cases hfind : getPathOwnership rows o.creator o.guardedPath with
  | none => exact absurd (List.mem_map.2 ⟨o, ho, rfl⟩) (getPathOwnership_eq_none.1 hfind)
  | some q =>
    have hq := List.find?_some hfind
    simp only [Bool.and_eq_true, beq_iff_eq] at hq
    exact congrArg some (List.inj_on_of_nodup_map hkeys (List.mem_of_find?_eq_some hfind) ho
      (Prod.ext hq.1 hq.2))

/-- What `reserve_paths` does to the rows, one path after the other. -/
structure Reserves (creator : CreatorPubky) (lockId : LockId) (paths : List String)
    (rows rows' : List ContentLockOwnership) : Prop where
  kept : ∀ o ∈ rows, o ∈ rows'
  new : ∀ o ∈ rows', o ∈ rows ∨ o.creator = creator ∧ o.lockId = lockId ∧
    o.guardedPath ∈ paths ∧ o.status = .reserved ∧ (creator, o.guardedPath) ∉ rows.map key
  owned : ∀ p ∈ paths, ∃ o ∈ rows', o.creator = creator ∧ o.guardedPath = p ∧ o.lockId = lockId ∧
    (o ∈ rows → o.status = .published)
  keys : (rows.map key).Nodup → (rows'.map key).Nodup

theorem reserves_nil : Reserves creator lockId [] rows rows :=
  ⟨fun _ h => h, fun _ h => .inl h, List.forall_mem_nil _, fun h => h⟩

theorem reserves_cons {path : String} {mid : List ContentLockOwnership}
    (hp : reservePath creator lockId rows path = .ok mid) (h : Reserves creator lockId paths mid rows')
    (hpath : path ∉ paths) : Reserves creator lockId (path :: paths) rows rows' := by
  unfold reservePath at hp
  split at hp
  · -- a free path: the new row is kept by the other inserts
    rename_i hfree
    cases hp
    rw [getPathOwnership_eq_none] at hfree
    refine ⟨fun o ho => h.kept o (List.mem_cons_of_mem _ ho), fun o ho => ?_, ?_, fun hk => ?_⟩
    · rcases h.new o ho with hmid | ⟨hc, hl, hmem, hs, hnot⟩
      · rcases List.mem_cons.1 hmid with rfl | hold
        · exact .inr ⟨rfl, rfl, List.mem_cons_self, rfl, hfree⟩
        · exact .inl hold
      · refine .inr ⟨hc, hl, List.mem_cons_of_mem _ hmem, hs, fun hin => hnot ?_⟩
        exact List.mem_cons_of_mem _ hin
    · intro p hmem
      rcases List.mem_cons.1 hmem with rfl | hmem
      · refine ⟨_, h.kept _ List.mem_cons_self, rfl, rfl, rfl, fun hin => ?_⟩
        exact absurd (List.mem_map.2 ⟨_, hin, rfl⟩) hfree
      · obtain ⟨o, ho, hc, hop, hl, hs⟩ := h.owned p hmem
        exact ⟨o, ho, hc, hop, hl, fun hin => hs (List.mem_cons_of_mem _ hin)⟩
    · refine h.keys ?_
      rw [List.map_cons, List.nodup_cons]
      exact ⟨hfree, hk⟩
  · -- a path the lock has published
    rename_i existing hfind
    split at hp
    · cases hp
    · rename_i hfine
      cases hp
      rw [not_or, not_not] at hfine
      refine ⟨h.kept, fun o ho => ?_, fun p hmem => ?_, h.keys⟩
      · rcases h.new o ho with hold | ⟨hc, hl, hmem, hs, hnot⟩
        · exact .inl hold
        · exact .inr ⟨hc, hl, List.mem_cons_of_mem _ hmem, hs, hnot⟩
      · rcases List.mem_cons.1 hmem with rfl | hmem
        · have hkey := List.find?_some hfind
          simp only [Bool.and_eq_true, beq_iff_eq] at hkey
          refine ⟨existing, h.kept _ (List.mem_of_find?_eq_some hfind), hkey.1, hkey.2, hfine.1,
            fun _ => ?_⟩
          cases hs : existing.status with
          | reserved => exact absurd hs hfine.2
          | published => rfl
        · exact h.owned p hmem

/-- **Reservations.** -/
theorem reserves_of_reservePaths (h : reservePaths rows creator paths lockId = .ok rows') :
    Reserves creator lockId paths rows rows' := by
  have hsorted : Reserves creator lockId (sortedUniquePaths paths) rows rows' := by
    have hnodup : (sortedUniquePaths paths).Nodup :=
      (List.perm_insertionSort _ _).nodup_iff.2 (List.nodup_dedup paths)
    unfold reservePaths at h
    generalize sortedUniquePaths paths = l at h hnodup
    induction l generalizing rows with
    | nil => cases h; exact reserves_nil
    | cons p l ih =>
      rw [List.foldlM_cons] at h
      obtain ⟨mid, hp, h⟩ := Checks.bind_eq_ok.1 h
      rw [List.nodup_cons] at hnodup
      exact reserves_cons hp (ih h hnodup.2) hnodup.1
  refine ⟨hsorted.kept, fun o ho => ?_, fun p hp => ?_, hsorted.keys⟩
  · simpa only [mem_sortedUniquePaths] using hsorted.new o ho
  · exact hsorted.owned p (mem_sortedUniquePaths.2 hp)

def promoted (creator : CreatorPubky) (paths : List String) (lockId : LockId)
    (o : ContentLockOwnership) : Bool :=
  o.creator == creator && paths.contains o.guardedPath && o.lockId == lockId

/-- **Promotion.**  `mark_paths_published` promotes the rows of the paths. -/
theorem markPathsPublished_eq (h : markPathsPublished rows creator paths lockId = .ok rows') :
    rows' = Table.updateWhere (promoted creator paths lockId)
      (fun o => { o with status := .published }) rows := by
  have hsorted : rows' = Table.updateWhere (promoted creator (sortedUniquePaths paths) lockId)
      (fun o => { o with status := .published }) rows := by
    unfold markPathsPublished at h
    generalize sortedUniquePaths paths = l at h
    induction l generalizing rows with
    | nil =>
      cases h
      exact (Table.updateWhere_eq_self fun o _ => by simp [promoted]).symm
    | cons p l ih =>
      rw [List.foldlM_cons] at h
      obtain ⟨mid, hp, h⟩ := Checks.bind_eq_ok.1 h
      rw [ih h]
      unfold markPathPublished at hp
      split at hp
      · cases hp
        unfold Table.updateWhere
        rw [List.map_map]
        refine List.map_congr_left fun o _ => ?_
        by_cases hc : o.creator = creator <;> by_cases hl : o.lockId = lockId <;>
          by_cases hop : o.guardedPath = p <;> simp [owns, promoted, hc, hl, hop]
      · cases hp
  rw [hsorted]
  unfold Table.updateWhere
  refine List.map_congr_left fun o _ => ?_
  have hmem : (sortedUniquePaths paths).contains o.guardedPath = paths.contains o.guardedPath := by
    rw [Bool.eq_iff_iff, List.contains_iff_mem, List.contains_iff_mem, mem_sortedUniquePaths]
  have heq : promoted creator (sortedUniquePaths paths) lockId o =
      promoted creator paths lockId o := by
    unfold promoted
    rw [hmem]
  rw [heq]

theorem markPathsPublished_isOk (h : ∀ p ∈ paths, ∃ o ∈ rows, owns creator p lockId o) :
    ∃ rows', markPathsPublished rows creator paths lockId = .ok rows' := by
  have hloop : ∀ (l : List String) (rows : List ContentLockOwnership),
      (∀ p ∈ l, ∃ o ∈ rows, owns creator p lockId o) →
      ∃ rows', l.foldlM (markPathPublished creator lockId) rows = .ok rows' := by
    intro l
    induction l with
    | nil => exact fun rows _ => ⟨rows, rfl⟩
    | cons p l ih =>
      intro rows h
      have hp : rows.any (owns creator p lockId) := List.any_eq_true.2 (h p List.mem_cons_self)
      rw [List.foldlM_cons, markPathPublished, if_pos hp]
      refine ih _ fun q hq => ?_
      -- a row that is promoted still owns its path
      obtain ⟨o, ho, howns⟩ := h q (List.mem_cons_of_mem _ hq)
      cases hprom : owns creator p lockId o with
      | true => exact ⟨_, Table.mem_updateWhere.2 ⟨o, ho, .inl ⟨hprom, rfl⟩⟩, howns⟩
      | false => exact ⟨o, Table.mem_updateWhere.2 ⟨o, ho, .inr ⟨hprom, rfl⟩⟩, howns⟩
  exact hloop _ rows fun p hp => h p (mem_sortedUniquePaths.1 hp)

end Ownership

/-! ## Intents -/

inductive PublicationRecovery where
  | none
  | requestMismatch
  | writeCompleted (publicationToken : Uuid) (contentLock : ContentLock)
  | pending (publicationToken : Uuid) (contentLock : ContentLock)

namespace PublicationTables

variable (t : PublicationTables)

def deletionExists (creator : CreatorPubky) (lockId : LockId) : Bool :=
  t.deletions.contains ⟨creator, lockId⟩

def intent? (creator : CreatorPubky) (lockId : LockId) : Option PublicationIntent :=
  t.intents.find? fun i => i.creator == creator && i.lockId == lockId

def holdsToken (creator : CreatorPubky) (lockId : LockId) (token : Uuid) (i : PublicationIntent) :
    Bool :=
  i.creator == creator && i.lockId == lockId && i.publicationToken == token

def beginPublication (E : Externals) (creator : CreatorPubky) (lockId : LockId) (token : Uuid)
    (lock : ContentLock) : Except ApplicationError (Unit × PublicationTables) :=
  if !publicationIntentMatchesRequest E creator lockId lock lock then
    .error (.storage "content lock publication intent identity mismatch")
  else if t.deletionExists creator lockId then .error .contentLockDeletionInProgress
  else if t.intents.any fun i =>
      (i.creator == creator && i.lockId == lockId) || i.publicationToken == token then
    .error (.contentLockPathConflict "content lock publication in progress")
  else .ok ((), { t with intents := ⟨creator, lockId, token, lock.readBack E, false⟩ :: t.intents })

def markPublicationWritten (creator : CreatorPubky) (lockId : LockId) (token : Uuid) :
    Except ApplicationError (Bool × PublicationTables) :=
  .ok (t.intents.any (holdsToken creator lockId token),
    { t with
      intents :=
        Table.updateWhere (holdsToken creator lockId token) (fun i => { i with written := true })
          t.intents })

def abandonPublication (creator : CreatorPubky) (lockId : LockId) (token : Uuid) :
    Except ApplicationError (Bool × PublicationTables) :=
  .ok (t.intents.any (holdsToken creator lockId token),
    { t with intents := t.intents.filter fun i => !holdsToken creator lockId token i })

/-- The intent that `compensate_publication` removes: the token holds it and its
    write is not completed. -/
def uncompleted (creator : CreatorPubky) (lockId : LockId) (token : Uuid) (i : PublicationIntent) :
    Bool :=
  holdsToken creator lockId token i && !i.written

theorem key_of_uncompleted {creator : CreatorPubky} {lockId : LockId} {token : Uuid}
    {i : PublicationIntent} (h : uncompleted creator lockId token i) : i.key = (creator, lockId) := by
  simp only [uncompleted, holdsToken, Bool.and_eq_true, beq_iff_eq] at h
  exact Prod.ext h.1.1.1 h.1.1.2

def compensatePublication (creator : CreatorPubky) (lockId : LockId) (token : Uuid) :
    Except ApplicationError (Bool × PublicationTables) :=
  match t.intents.find? (uncompleted creator lockId token) with
  | none => .ok (false, t)
  | some i => .ok (true,
      { t with
        ownership := Ownership.compensateReservedPaths t.ownership creator
          (publicationGuardedPaths i.originalContentLock) lockId
        intents := t.intents.filter fun i => !uncompleted creator lockId token i })

def reconcilePublication (E : Externals) (creator : CreatorPubky) (lockId : LockId)
    (published : ContentLock) (paths : List String) :
    Except ApplicationError (Bool × PublicationTables) :=
  if !publicationReconciliationMatches E creator lockId published paths then .ok (false, t)
  else match t.intent? creator lockId with
    | some i =>
      if i.written && i.originalContentLock == published then
        .ok (true, { t with intents := t.intents.filter fun i =>
          !(i.creator == creator && i.lockId == lockId && i.written) })
      else .ok (false, t)
    | none => .ok (false, t)

def recoverPublication (E : Externals) (creator : CreatorPubky) (lockId : LockId)
    (requested : ContentLock) : Except ApplicationError PublicationRecovery :=
  if t.deletionExists creator lockId then .error .contentLockDeletionInProgress
  else match t.intent? creator lockId with
    | none => .ok .none
    | some i =>
      .ok (if !publicationIntentMatchesRequest E creator lockId i.originalContentLock requested then
          .requestMismatch
        else if i.written then .writeCompleted i.publicationToken i.originalContentLock
        else .pending i.publicationToken i.originalContentLock)

end PublicationTables

end PubkyLocks
