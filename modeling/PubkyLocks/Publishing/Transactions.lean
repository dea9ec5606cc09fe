/-
  The transactions of a publication, statement by statement
  (`infrastructure/postgres/content_lock_ownership.rs`,
  `infrastructure/postgres/content_lock_deletions.rs`).

  The transactions on `content_lock_ownership` take no advisory lock: each path
  is an insert, an update or a delete of its own, and between two of them other
  publishers commit.  What keeps them apart is the unique key of the table and
  the lock on a row that is written.  The transactions on the intents take the
  advisory lock of the content lock, as those of deletions do.
-/
import PubkyLocks.Lib.RowLocks
import PubkyLocks.Publishing.Repository
import PubkyLocks.Store.Interleavings

namespace PubkyLocks

open Ownership PublicationTables

open RowLocks (Write Reads view row? slice Exclusive Unique)

/-! ## Statements -/

/-- The tables of the store, with the material of the publication intents. -/
structure PublicationDb where
  db : Database
  intents : List PublicationIntent

namespace PublicationDb

/-- The tables as the transactions of the store see them. -/
def database (s : PublicationDb) : Database :=
  { s.db with intents := s.intents.map fun i => ⟨i.creator, i.lockId⟩ }

def intent? (s : PublicationDb) (creator : CreatorPubky) (lockId : LockId) :
    Option PublicationIntent :=
  s.intents.find? fun i => i.creator == creator && i.lockId == lockId

end PublicationDb

abbrev OwnershipWrite := Write (CreatorPubky × String) ContentLockOwnership

abbrev PublicationReads := Reads PublicationDb (CreatorPubky × String) ContentLockOwnership

/-- A statement.  `require` is a check of the input. -/
inductive PublicationStatement where
  | insertReserved (creator : CreatorPubky) (lockId : LockId) (path : String)
  | selectReserved (creator : CreatorPubky) (lockId : LockId) (path : String)
  | updatePublished (creator : CreatorPubky) (lockId : LockId) (path : String)
  | deleteReserved (creator : CreatorPubky) (lockId : LockId) (path : String)
  | require (valid : Bool)
  | noDeletion (creator : CreatorPubky) (lockId : LockId)
  | selectUncompleted (creator : CreatorPubky) (lockId : LockId) (token : Uuid)
      (original : ContentLock)
  | selectCompleted (creator : CreatorPubky) (lockId : LockId) (published : ContentLock)
  | check (c : Database → Bool)

namespace PublicationStatement

/-- The row of a path that an update or a delete finds. -/
def found (r : PublicationReads) (creator : CreatorPubky) (path : String) :
    Option ContentLockOwnership :=
  if r.fresh then getPathOwnership r.rows creator path else none

/-- The result of a statement: `none` if the transaction fails, else the row it
    writes.  `select_reserved` knows from the rows affected by the insert before
    it whether the row is new. -/
def run (r : PublicationReads) : PublicationStatement → Option (Option OwnershipWrite)
  | insertReserved c l p =>
    some (if (getPathOwnership r.rows c p).isSome then none
      else some (.insert ⟨c, p, l, .reserved⟩))
  | selectReserved c l p =>
    match getPathOwnership r.rows c p with
    | none => none
    | some existing =>
      let inserted := r.writes.any fun w => w.target key = (c, p)
      if existing.lockId ≠ l ∨ (inserted = false ∧ existing.status = .reserved) then none
      else some none
  | updatePublished c l p =>
    match found r c p with
    | some o => if o.lockId = l then some (some (.update { o with status := .published })) else none
    | none => none
  | deleteReserved c l p =>
    match found r c p with
    | some o => if o.lockId = l ∧ o.status = .reserved then some (some (.delete (c, p)))
      else some none
    | none => some none
  | require valid => if valid then some none else none
  | noDeletion c l => if r.db.database.deletionCutoff c l then none else some none
  | selectUncompleted c l token original =>
    if (r.db.intents.find? (uncompleted c l token)).any
        (·.originalContentLock == original) then some none else none
  | selectCompleted c l published =>
    if (r.db.intent? c l).any fun i => i.written && i.originalContentLock == published then
      some none
    else none
  | check c => if c r.db.database then some none else none

end PublicationStatement

/-! ## Transactions -/

/-- A transaction, with what its reads returned.  `compensate_publication` reads
    the lock whose paths it compensates. -/
inductive PublicationTransaction where
  | reservePaths (creator : CreatorPubky) (paths : List String) (lockId : LockId)
  | markPathsPublished (creator : CreatorPubky) (paths : List String) (lockId : LockId)
  | compensateReservedPaths (creator : CreatorPubky) (paths : List String) (lockId : LockId)
  | beginPublication (creator : CreatorPubky) (lockId : LockId) (token : Uuid)
      (original : ContentLock)
  | markPublicationWritten (creator : CreatorPubky) (lockId : LockId) (token : Uuid)
  | abandonPublication (creator : CreatorPubky) (lockId : LockId) (token : Uuid)
  | compensatePublication (creator : CreatorPubky) (lockId : LockId) (token : Uuid)
      (original : ContentLock)
  | reconcilePublication (creator : CreatorPubky) (lockId : LockId) (published : ContentLock)
      (paths : List String)
  | store (t : Transaction)

/-- The transaction of the store writes the intents, so it is one of the
    transactions above. -/
def Transaction.writesIntents : Transaction → Bool
  | beginPublication _ _ | single (.endPublication _ _) => true
  | _ => false

namespace PublicationTransaction

variable (E : Externals)

def statements : PublicationTransaction → List PublicationStatement
  | reservePaths c paths l =>
    (sortedUniquePaths paths).flatMap fun p => [.insertReserved c l p, .selectReserved c l p]
  | markPathsPublished c paths l => (sortedUniquePaths paths).map (.updatePublished c l)
  | compensateReservedPaths c paths l => (sortedUniquePaths paths).map (.deleteReserved c l)
  | beginPublication c l _ original =>
    [.require (publicationIntentMatchesRequest E c l original original), .noDeletion c l]
  | markPublicationWritten _ _ _ | abandonPublication _ _ _ => []
  | compensatePublication c l token original =>
    .selectUncompleted c l token original ::
      (sortedUniquePaths (publicationGuardedPaths original)).map (.deleteReserved c l)
  | reconcilePublication c l published paths =>
    [.require (publicationReconciliationMatches E c l published paths),
      .selectCompleted c l published]
  | store t => (t.checks E).map .check

/-- The write of the tables other than `content_lock_ownership`. -/
def write : PublicationTransaction → PublicationDb → Option PublicationDb
  | reservePaths _ _ _, s | markPathsPublished _ _ _, s | compensateReservedPaths _ _ _, s =>
    some s
  | beginPublication c l token original, s =>
    if s.intents.any fun i => (i.creator == c && i.lockId == l) || i.publicationToken == token then
      none
    else some { s with intents := ⟨c, l, token, original.readBack E, false⟩ :: s.intents }
  | markPublicationWritten c l token, s =>
    some { s with
      intents := Table.updateWhere (holdsToken c l token)
        (fun i => { i with written := true }) s.intents }
  | abandonPublication c l token, s =>
    some { s with intents := s.intents.filter fun i => !holdsToken c l token i }
  | compensatePublication c l token _, s =>
    some { s with intents := s.intents.filter fun i => !uncompleted c l token i }
  | reconcilePublication c l _ _, s =>
    some { s with
      intents := s.intents.filter fun i => !(i.creator == c && i.lockId == l && i.written) }
  | store t, s =>
    if t.writesIntents then none
    else (t.write E s.database).map fun db => { s with db }

/-- The content lock whose advisory lock the transaction takes. -/
def lock? : PublicationTransaction → Option (CreatorPubky × LockId)
  | reservePaths _ _ _ | markPathsPublished _ _ _ | compensateReservedPaths _ _ _ => none
  | beginPublication c l _ _ | markPublicationWritten c l _ | abandonPublication c l _
  | compensatePublication c l _ _ | reconcilePublication c l _ _ => some (c, l)
  | store t => t.lock?

def locks : PublicationTransaction → List AdmissionLock
  | store t => t.locks
  | t => t.lock?.toList.map fun key => .lock key.1 key.2

def program (t : PublicationTransaction) :
    RowLocks.Program PublicationDb AdmissionLock (CreatorPubky × String) ContentLockOwnership where
  locks := t.locks
  statements := (t.statements E).map fun st r => st.run r
  write := t.write E

/-- The creator, the lock and the paths of a compensation. -/
def compensates? : PublicationTransaction → Option (CreatorPubky × LockId × List String)
  | compensateReservedPaths c paths l => some (c, l, paths)
  | compensatePublication c l _ original => some (c, l, publicationGuardedPaths original)
  | _ => none

end PublicationTransaction

/-- The tables and the open transactions. -/
abbrev PublicationSystem :=
  RowLocks.State PublicationDb (CreatorPubky × String) ContentLockOwnership PublicationTransaction

namespace PublicationSystem

def exec (E : Externals) (s : PublicationSystem)
    (e : RowLocks.Event PublicationTransaction) : Option PublicationSystem :=
  RowLocks.exec key (PublicationTransaction.program E) s e

def init : PublicationSystem := ⟨⟨.empty, []⟩, [], []⟩

end PublicationSystem

/-! ## One path -/

/-- What a transaction does to the row of a path. -/
inductive Wrote (t : PublicationTransaction) :
    Option ContentLockOwnership → Option ContentLockOwnership → Prop
  | reserved (c : CreatorPubky) (paths : List String) (l : LockId) (p : String) :
      t = .reservePaths c paths l → p ∈ paths → Wrote t none (some ⟨c, p, l, .reserved⟩)
  | published (paths : List String) (o : ContentLockOwnership) :
      t = .markPathsPublished o.creator paths o.lockId → o.guardedPath ∈ paths →
      Wrote t (some o) (some { o with status := .published })
  | compensated (paths : List String) (o : ContentLockOwnership) :
      t.compensates? = some (o.creator, o.lockId, paths) → o.guardedPath ∈ paths →
      o.status = .reserved → Wrote t (some o) none

/-- The row of a path is as it was, or the transaction has written it. -/
def Moves (t : PublicationTransaction) (a b : Option ContentLockOwnership) : Prop :=
  b = a ∨ Wrote t a b

variable {E : Externals} {t : PublicationTransaction} {a b d : Option ContentLockOwnership}
  {c : CreatorPubky} {l : LockId} {p : String}

theorem Moves.wrote (h : Moves t a b) (hw : Wrote t b d) : Wrote t a d := by
  rcases h with rfl | h
  · exact hw
  · cases h with
    | reserved c paths l p ht hp =>
      subst ht
      cases hw with
      | published _ _ ht' => cases ht'
      | compensated _ _ ht' => cases ht'
    | published paths o ht hp =>
      subst ht
      cases hw with
      | published _ _ ht' hp' => exact .published paths o rfl hp
      | compensated _ _ ht' => cases ht'
    | compensated paths o ht hp hs =>
      cases hw with
      | reserved _ _ _ _ ht' =>
        subst ht'
        cases ht

theorem Wrote.free {paths : List String} (h : Wrote t a b) (ht : t = .reservePaths c paths l) :
    a = none := by
  cases h with
  | reserved => rfl
  | published _ _ ht' => cases ht'.symm.trans ht
  | compensated _ _ ht' =>
    subst ht
    cases ht'

theorem Moves.published {o : ContentLockOwnership} (h : Moves t (some o) b)
    (hs : o.status = .published) : b = some o := by
  rcases h with h | h
  · exact h
  · cases h with
    | published paths _ _ _ =>
      obtain ⟨oc, op, ol, os⟩ := o
      cases hs
      rfl
    | compensated paths _ _ _ hs' =>
      rw [hs] at hs'
      cases hs'

theorem Ownership.getPathOwnership_eq_row? (rows : List ContentLockOwnership) :
    getPathOwnership rows c p = row? key rows (c, p) := by
  unfold getPathOwnership row?
  congr 1
  funext o
  rw [Bool.eq_iff_iff, decide_eq_true_iff, Bool.and_eq_true, beq_iff_eq, beq_iff_eq, key,
    Prod.mk.injEq]

/-! ### Statements -/

namespace PublicationStatement

theorem row?_of_found {r : PublicationReads} {o : ContentLockOwnership}
    (h : found r c p = some o) : row? key r.rows (c, p) = some o := by
  unfold found at h
  split at h
  · rw [← getPathOwnership_eq_row?]
    exact h
  · cases h

/-- **What a statement writes.** -/
theorem write_cases {st : PublicationStatement} {r : PublicationReads} {w : OwnershipWrite}
    (h : st.run r = some (some w)) :
    (∃ c l p, st = .insertReserved c l p ∧ row? key r.rows (c, p) = none ∧
      w = .insert ⟨c, p, l, .reserved⟩) ∨
    (∃ c p o, st = .updatePublished c o.lockId p ∧ row? key r.rows (c, p) = some o ∧
      w = .update { o with status := .published }) ∨
    (∃ c p o, st = .deleteReserved c o.lockId p ∧ row? key r.rows (c, p) = some o ∧
      o.status = .reserved ∧ w = .delete (c, p)) := by
  cases st with
  | insertReserved c l p =>
    simp only [run, Option.some.injEq] at h
    split at h
    · cases h
    · rename_i hnone
      rw [Bool.not_eq_true, Option.isSome_eq_false_iff, Option.isNone_iff_eq_none,
        getPathOwnership_eq_row?] at hnone
      cases h
      exact .inl ⟨c, l, p, rfl, hnone, rfl⟩
  | selectReserved c l p =>
    simp only [run] at h
    split at h
    · cases h
    · split at h <;> cases h
  | updatePublished c l p =>
    simp only [run] at h
    split at h
    · rename_i o ho
      split at h
      · rename_i hl
        subst hl
        cases h
        exact .inr (.inl ⟨c, p, o, rfl, row?_of_found ho, rfl⟩)
      · cases h
    · cases h
  | deleteReserved c l p =>
    simp only [run] at h
    split at h
    · rename_i o ho
      split at h
      · rename_i hl
        obtain ⟨rfl, hs⟩ := hl
        cases h
        exact .inr (.inr ⟨c, p, o, rfl, row?_of_found ho, hs, rfl⟩)
      · cases h
    · cases h
  | require valid => simp only [run] at h; split at h <;> cases h
  | noDeletion c l => simp only [run] at h; split at h <;> cases h
  | selectUncompleted c l token original => simp only [run] at h; split at h <;> cases h
  | selectCompleted c l published => simp only [run] at h; split at h <;> cases h
  | check f => simp only [run] at h; split at h <;> cases h

end PublicationStatement

namespace PublicationTransaction

theorem of_mem_insertReserved (h : .insertReserved c l p ∈ t.statements E) :
    ∃ paths, t = .reservePaths c paths l ∧ p ∈ paths := by
  cases t with
  | reservePaths c' paths l' =>
    obtain ⟨q, hq, hmem⟩ := List.mem_flatMap.1 h
    rcases List.mem_pair.1 hmem with he | he
    · cases he
      exact ⟨paths, rfl, mem_sortedUniquePaths.1 hq⟩
    · cases he
  | _ => simp [statements] at h

theorem of_mem_selectReserved (h : .selectReserved c l p ∈ t.statements E) :
    ∃ paths, t = .reservePaths c paths l := by
  cases t with
  | reservePaths c' paths l' =>
    obtain ⟨q, hq, hmem⟩ := List.mem_flatMap.1 h
    rcases List.mem_pair.1 hmem with he | he
    · cases he
    · cases he
      exact ⟨paths, rfl⟩
  | _ => simp [statements] at h

theorem of_mem_updatePublished (h : .updatePublished c l p ∈ t.statements E) :
    ∃ paths, t = .markPathsPublished c paths l ∧ p ∈ paths := by
  cases t with
  | markPathsPublished c' paths l' =>
    obtain ⟨q, hq, he⟩ := List.mem_map.1 h
    cases he
    exact ⟨paths, rfl, mem_sortedUniquePaths.1 hq⟩
  | _ => simp [statements] at h

theorem of_mem_deleteReserved (h : .deleteReserved c l p ∈ t.statements E) :
    ∃ paths, t.compensates? = some (c, l, paths) ∧ p ∈ paths := by
  cases t with
  | compensateReservedPaths c' paths l' =>
    obtain ⟨q, hq, he⟩ := List.mem_map.1 h
    cases he
    exact ⟨paths, rfl, mem_sortedUniquePaths.1 hq⟩
  | compensatePublication c' l' token original =>
    rcases List.mem_cons.1 h with he | h
    · cases he
    · obtain ⟨q, hq, he⟩ := List.mem_map.1 h
      cases he
      exact ⟨_, rfl, mem_sortedUniquePaths.1 hq⟩
  | _ => simp [statements] at h

end PublicationTransaction

/-- **One statement.** -/
theorem wrote_of_run {st : PublicationStatement} {r : PublicationReads} {w : OwnershipWrite}
    (hst : st ∈ t.statements E) (h : st.run r = some (some w)) :
    Wrote t (row? key r.rows (w.target key))
      (row? key (w.apply key r.rows) (w.target key)) := by
  rcases PublicationStatement.write_cases h with ⟨c, l, p, rfl, hrow, rfl⟩ |
    ⟨c, p, o, rfl, hrow, rfl⟩ | ⟨c, p, o, rfl, hrow, hs, rfl⟩
  · obtain ⟨paths, ht, hp⟩ := PublicationTransaction.of_mem_insertReserved hst
    rw [RowLocks.Write.target, RowLocks.row?_insert]
    show Wrote t (row? key r.rows (c, p)) _
    rw [hrow]
    exact .reserved c paths l p ht hp
  · obtain ⟨paths, ht, hp⟩ := PublicationTransaction.of_mem_updatePublished hst
    obtain ⟨-, hkey⟩ := RowLocks.row?_eq_some hrow
    cases hkey
    have hafter : row? key (Write.apply key r.rows
        (.update { o with status := .published })) _ = _ := RowLocks.row?_update hrow
    rw [RowLocks.Write.target, hafter]
    show Wrote t (row? key r.rows (o.creator, o.guardedPath)) _
    rw [hrow]
    exact .published paths o ht hp
  · obtain ⟨paths, ht, hp⟩ := PublicationTransaction.of_mem_deleteReserved hst
    obtain ⟨-, hkey⟩ := RowLocks.row?_eq_some hrow
    cases hkey
    rw [RowLocks.Write.target, RowLocks.row?_delete, hrow]
    exact .compensated paths o ht hp hs

/-! ## Open transactions -/

/-- The rows and the writes show that the lock owns the path, by a row that is
    new or published. -/
def HoldsPath (c : CreatorPubky) (l : LockId) (p : String) (rows : List ContentLockOwnership)
    (writes : List OwnershipWrite) : Prop :=
  ∃ o, row? key (view key rows writes) (c, p) = some o ∧ o.lockId = l ∧
    (row? key rows (c, p) = some o → o.status = .published)

/-- What an open transaction relies on after `n` statements: each row it has
    written is one that it may write, and it holds each path whose reservation it
    has checked. -/
structure PublicationTransaction.Keeps (E : Externals) (t : PublicationTransaction) (n : ℕ)
    (rows : List ContentLockOwnership) (writes : List OwnershipWrite) : Prop where
  wrote : ∀ w ∈ writes, Wrote t (row? key rows (w.target key))
    (row? key (view key rows writes) (w.target key))
  held : ∀ c l p, .selectReserved c l p ∈ (t.statements E).take n → HoldsPath c l p rows writes

namespace PublicationTransaction

variable {n : ℕ} {rows : List ContentLockOwnership} {writes : List OwnershipWrite}

theorem Keeps.moves (h : t.Keeps E n rows writes) (k : CreatorPubky × String) :
    Moves t (row? key rows k)
      (row? key (view key rows writes) k) := by
  by_cases hk : ∃ w ∈ writes, w.target key = k
  · obtain ⟨w, hw, rfl⟩ := hk
    exact .inr (h.wrote w hw)
  · exact .inl (RowLocks.row?_view_of_free fun w hw he => hk ⟨w, hw, he⟩)

theorem Keeps.statement {st : PublicationStatement} {db : PublicationDb} {fresh : Bool}
    {w : Option OwnershipWrite} (h : t.Keeps E n rows writes)
    (hst : (t.statements E)[n]? = some st)
    (hrun : st.run ⟨db, view key rows writes, writes, fresh⟩ = some w) :
    t.Keeps E (n + 1) rows (writes ++ w.toList) := by
  have hmem : st ∈ t.statements E := List.mem_of_getElem? hst
  -- what one more write does to the row of a path
  have hview : ∀ k, Wrote t (row? key (view key rows writes) k)
        (row? key (view key rows (writes ++ w.toList)) k) ∨
      (∀ x, w = some x → x.target key ≠ k) ∧
        row? key (view key rows (writes ++ w.toList)) k =
          row? key (view key rows writes) k := by
    intro k
    rw [RowLocks.view_append]
    cases w with
    | none => exact .inr ⟨fun _ hx => (by cases hx), rfl⟩
    | some x =>
      by_cases hk : x.target key = k
      · subst hk
        exact .inl (wrote_of_run hmem hrun)
      · refine .inr ⟨fun y hy => (by cases hy; exact hk), ?_⟩
        refine RowLocks.row?_view_of_free fun y hy => ?_
        rw [List.mem_singleton.1 hy]
        exact hk
  refine ⟨fun x hx => ?_, fun c l p hp => ?_⟩
  · rcases hview (x.target key) with hw | ⟨hfree, hsame⟩
    · exact (h.moves _).wrote hw
    · rcases List.mem_append.1 hx with hx | hx
      · rw [hsame]
        exact h.wrote x hx
      · exact absurd rfl (hfree x (Option.mem_toList.1 hx))
  · have hpart := List.mem_of_mem_take hp
    obtain ⟨paths, ht⟩ := of_mem_selectReserved hpart
    rw [List.take_add_one, hst, List.mem_append] at hp
    rcases hp with hp | hp
    · -- a path that is held is not inserted again
      obtain ⟨o, ho, hrest⟩ := h.held c l p hp
      rcases hview (c, p) with hw | ⟨-, hsame⟩
      · cases ho.symm.trans (hw.free ht)
      · exact ⟨o, hsame.trans ho, hrest⟩
    · -- the row that the check has found
      obtain rfl : PublicationStatement.selectReserved c l p = st :=
        Option.some.inj (Option.mem_toList.1 hp).symm
      simp only [PublicationStatement.run, getPathOwnership_eq_row?] at hrun
      split at hrun
      · cases hrun
      · rename_i o ho
        split at hrun
        · cases hrun
        · rename_i hfine
          cases hrun
          rw [not_or, not_not, not_and] at hfine
          refine ⟨o, by simpa using ho, hfine.1, fun hrow => ?_⟩
          cases hstatus : o.status with
          | published => rfl
          | reserved =>
            -- then the insert was its own, and the path had no row
            exfalso
            refine hfine.2 ?_ hstatus
            rw [List.any_eq_false]
            intro x hx hkey
            have hfree := (h.wrote x hx).free ht
            rw [of_decide_eq_true hkey, hrow] at hfree
            cases hfree

theorem Keeps.commit {rows' : List ContentLockOwnership} (h : t.Keeps E n rows writes)
    (hown : ∀ w ∈ writes, slice key (w.target key) rows' =
      slice key (w.target key) rows)
    (hmoves : ∀ k, ∃ t', Moves t' (row? key rows k) (row? key rows' k)) :
    t.Keeps E n rows' writes := by
  refine ⟨fun w hw => ?_, fun c l p hp => ?_⟩
  · rw [RowLocks.row?_of_slice (hown w hw),
      RowLocks.row?_of_slice (RowLocks.slice_view_congr (hown w hw))]
    exact h.wrote w hw
  · obtain ⟨o, ho, hl, hstatus⟩ := h.held c l p hp
    by_cases hk : ∃ w ∈ writes, w.target key = (c, p)
    · obtain ⟨w, hw, hkey⟩ := hk
      have hslice := hown w hw
      rw [hkey] at hslice
      refine ⟨o, ?_, hl, ?_⟩
      · rw [RowLocks.row?_of_slice (RowLocks.slice_view_congr hslice)]
        exact ho
      · rw [RowLocks.row?_of_slice hslice]
        exact hstatus
    · have hfree : ∀ w ∈ writes, w.target key ≠ (c, p) := fun w hw he => hk ⟨w, hw, he⟩
      rw [RowLocks.row?_view_of_free hfree] at ho
      obtain ⟨t', hm⟩ := hmoves (c, p)
      rw [ho] at hm
      refine ⟨o, ?_, hl, fun _ => hstatus ho⟩
      rw [RowLocks.row?_view_of_free hfree]
      exact hm.published (hstatus ho)

end PublicationTransaction

/-! ## Runs -/

namespace PublicationSystem

/-- What holds in every state: the open transactions are apart, every path has
    one row at most, and the transactions can rely on what they have done. -/
structure OwnershipInvariant (E : Externals) (s : PublicationSystem) : Prop where
  locks : Exclusive key (PublicationTransaction.program E) s
  unique : Unique key s
  keeps : RowLocks.Knows (fun t n _ rows writes => t.Keeps E n rows writes) s

structure OwnershipStep (s : PublicationSystem) (e : RowLocks.Event PublicationTransaction)
    (s' : PublicationSystem) : Prop where
  owner : ∀ o ∈ s.rows, ∀ o' ∈ s'.rows, key o' = key o → o'.lockId = o.lockId
  published : ∀ o ∈ s.rows, o.status = .published → o ∈ s'.rows
  reserved : ∀ t ∈ s.active, e = .commit t.id → ∀ c paths l, t.label = .reservePaths c paths l →
    ∀ p ∈ paths, ∃ o ∈ s'.rows, key o = (c, p) ∧ o.lockId = l ∧
      (o ∈ s.rows → o.status = .published)
  new : ∀ o ∈ s'.rows, key o ∉ s.rows.map key →
    ∃ t ∈ s.active, e = .commit t.id ∧ ∃ paths,
      t.label = .reservePaths o.creator paths o.lockId ∧ o.guardedPath ∈ paths
  removed : ∀ o ∈ s.rows, key o ∉ s'.rows.map key →
    o.status = .reserved ∧ ∃ t ∈ s.active, e = .commit t.id ∧ ∃ paths,
      t.label.compensates? = some (o.creator, o.lockId, paths) ∧ o.guardedPath ∈ paths
  uncommitted : (∀ id, e ≠ .commit id) → s'.rows = s.rows

variable {s s' : PublicationSystem} {e : RowLocks.Event PublicationTransaction}

theorem ownershipInvariant_init : OwnershipInvariant E init where
  locks := List.Pairwise.nil
  unique := ⟨List.nodup_nil, List.forall_mem_nil _⟩
  keeps := List.forall_mem_nil _

theorem statement_of_program {t : PublicationTransaction} {n : ℕ}
    {f : PublicationReads → Option (Option OwnershipWrite)}
    (h : (t.program E).statements[n]? = some f) :
    ∃ st, (t.statements E)[n]? = some st ∧ ∀ r, f r = st.run r := by
  have hmap : ((t.statements E).map fun st r => PublicationStatement.run r st)[n]? = some f := h
  rw [List.getElem?_map, Option.map_eq_some_iff] at hmap
  obtain ⟨st, hst, rfl⟩ := hmap
  exact ⟨st, hst, fun _ => rfl⟩

section
variable (h : OwnershipInvariant E s)
include h

/-- **A commit** does to the row of a path what its transaction may do. -/
theorem moves_of_commit {t : RowLocks.Open _ _ PublicationTransaction}
    (ht : t ∈ s.active) {rows : List ContentLockOwnership}
    (hrows : rows = view key s.rows t.writes) (k : CreatorPubky × String) :
    Moves t.label (row? key s.rows k) (row? key rows k) := by
  rw [hrows]
  exact (h.keeps t ht).moves k

/-- **One event** keeps the invariant. -/
theorem ownershipInvariant_exec (hstep : exec E s e = some s') : OwnershipInvariant E s' where
  locks := RowLocks.exclusive_exec h.locks hstep
  unique := by
    refine RowLocks.unique_exec h.locks h.unique hstep fun t ht fresh f row hf hrow => ?_
    obtain ⟨st, hst, hrun⟩ := statement_of_program hf
    rw [hrun] at hrow
    rcases PublicationStatement.write_cases hrow with ⟨c, l, p, rfl, hnone, hw⟩ |
      ⟨c, p, o, rfl, -, hw⟩ | ⟨c, p, o, rfl, -, -, hw⟩
    · cases hw
      exact RowLocks.row?_eq_none.1 hnone
    · cases hw
    · cases hw
  keeps := by
    refine RowLocks.knows_exec h.keeps hstep ?_ ?_ ?_
    · exact fun _ _ _ => ⟨List.forall_mem_nil _, fun _ _ _ hp => by simp at hp⟩
    · intro t ht fresh f w hf hw hk
      obtain ⟨st, hst, hrun⟩ := statement_of_program hf
      rw [hrun] at hw
      exact hk.statement hst hw
    · intro t ht _ _ hrows a ha hne hk
      refine hk.commit (fun w hw => ?_) fun k => ⟨t.label, moves_of_commit h ht hrows k⟩
      rw [hrows]
      exact h.locks.slice_commit ht ha hne hw

/-- **A reservation that commits** has every path, by a row that is new or
    published. -/
theorem reserved_of_commit {t : RowLocks.Open _ _ PublicationTransaction} (ht : t ∈ s.active)
    (hp : t.passed = (t.label.program E).statements.length)
    (hrows : s'.rows = view key s.rows t.writes) {c : CreatorPubky} {paths : List String}
    {l : LockId} (hl : t.label = .reservePaths c paths l) {p : String} (hpath : p ∈ paths) :
    ∃ o ∈ s'.rows, key o = (c, p) ∧ o.lockId = l ∧
      (o ∈ s.rows → o.status = .published) := by
  have hmem : .selectReserved c l p ∈ (t.label.statements E).take t.passed := by
    have hlength : t.passed = (t.label.statements E).length := by
      rw [hp]
      exact List.length_map _
    rw [hlength, List.take_length, hl]
    refine List.mem_flatMap.2 ⟨p, mem_sortedUniquePaths.2 hpath, ?_⟩
    exact List.mem_cons_of_mem _ (List.mem_singleton_self _)
  obtain ⟨o, ho, hlock, hstatus⟩ := (h.keeps t ht).held c l p hmem
  rw [← hrows] at ho
  obtain ⟨hmem', hkey⟩ := RowLocks.row?_eq_some ho
  refine ⟨o, hmem', hkey, hlock, fun hold => hstatus ?_⟩
  rw [← hkey]
  exact RowLocks.row?_of_mem h.unique.1 hold

/-- **One event** does to the ownership of paths what it may do. -/
theorem ownershipStep_exec (hstep : exec E s e = some s') : OwnershipStep s e s' := by
  have h' := ownershipInvariant_exec h hstep
  -- rows change in commits only
  have hcases : (s'.rows = s.rows ∧ ∀ id, e ≠ .commit id) ∨
      ∃ t ∈ s.active, e = .commit t.id ∧ t.passed = (t.label.program E).statements.length ∧
        s'.rows = view key s.rows t.writes := by
    rcases RowLocks.exec_cases hstep with ⟨id, label, rfl, -, -, rfl⟩ |
      ⟨t, ht, fresh, st, w, rfl, -, -, -, rfl⟩ | ⟨t, ht, he, hp, -, hrows, -⟩ | ⟨id, rfl, rfl⟩
    · exact .inl ⟨rfl, by rintro _ ⟨⟩⟩
    · exact .inl ⟨rfl, by rintro _ ⟨⟩⟩
    · exact .inr ⟨t, ht, he, hp, hrows⟩
    · exact .inl ⟨rfl, by rintro _ ⟨⟩⟩
  rcases hcases with ⟨hsame, he⟩ | ⟨t, ht, rfl, hp, hrows⟩
  · refine ⟨fun o ho o' ho' hkey => ?_, fun o ho _ => hsame ▸ ho, fun t _ hc => absurd hc (he _),
      fun o ho hnew => ?_, fun o ho hgone => ?_, fun _ => hsame⟩
    · rw [hsame] at ho'
      rw [List.inj_on_of_nodup_map h.unique.1 ho' ho hkey]
    · rw [hsame] at ho
      exact absurd (List.mem_map_of_mem ho) hnew
    · rw [hsame] at hgone
      exact absurd (List.mem_map_of_mem ho) hgone
  · have hmoves := moves_of_commit h ht hrows
    have hold : ∀ o ∈ s.rows,
        Moves t.label (some o) (row? key s'.rows (key o)) := by
      intro o ho
      have hm := hmoves (key o)
      rwa [RowLocks.row?_of_mem h.unique.1 ho] at hm
    refine ⟨fun o ho o' ho' hkey => ?_, fun o ho hs => ?_, fun a ha he c paths l hl p hpath => ?_,
      fun o ho hnew => ?_, fun o ho hgone => ?_, fun he => absurd rfl (he t.id)⟩
    · have hm := hold o ho
      rw [← hkey, RowLocks.row?_of_mem h'.unique.1 ho'] at hm
      rcases hm with hm | hm
      · rw [Option.some.inj hm]
      · cases hm
        rfl
    · exact (RowLocks.row?_eq_some ((hold o ho).published hs)).1
    · have hid : t.id = a.id := by
        injection he
      obtain rfl := h.locks.eq_of_id ht ha hid
      exact reserved_of_commit h ht hp hrows hl hpath
    · have hm := hmoves (key o)
      rw [RowLocks.row?_eq_none.2 hnew, RowLocks.row?_of_mem h'.unique.1 ho] at hm
      rcases hm with hm | hm
      · cases hm
      · cases hm with
        | reserved c paths l p hl hpath => exact ⟨t, ht, rfl, paths, hl, hpath⟩
    · have hm := hold o ho
      rw [RowLocks.row?_eq_none.2 hgone] at hm
      rcases hm with hm | hm
      · cases hm
      · cases hm with
        | compensated paths _ hl hpath hs => exact ⟨hs, t, ht, rfl, paths, hl, hpath⟩

end

theorem ownershipInvariant_of_run {events : List (RowLocks.Event PublicationTransaction)}
    (h : Runs.Run (Runs.ofExec (exec E)) init events s) : OwnershipInvariant E s :=
  h.invariant (I := OwnershipInvariant E) ownershipInvariant_init
    fun _ _ _ h hstep => ownershipInvariant_exec h hstep

/-- **Ownership of guarded paths.**  However the transactions interleave, a path
    of a creator has one owner at most, and every event keeps the owners: rows
    appear by a reservation of all its paths and go by a compensation of the lock
    that reserved them, and published rows stay in every later state. -/
theorem paths_owned {events : List (RowLocks.Event PublicationTransaction)}
    (h : Runs.Run (Runs.ofExec (exec E)) init events s) :
    (∀ o ∈ s.rows, ∀ o' ∈ s.rows, o'.creator = o.creator → o'.guardedPath = o.guardedPath →
      o' = o) ∧
    (∀ e s', exec E s e = some s' → OwnershipStep s e s') ∧
    ∀ later t, Runs.Run (Runs.ofExec (exec E)) s later t →
      ∀ o ∈ s.rows, o.status = .published → o ∈ t.rows := by
  have hinv := ownershipInvariant_of_run h
  refine ⟨fun o ho o' ho' hc hp => ?_, fun e s' hstep => ownershipStep_exec hinv hstep,
    fun later t hlater o ho hs => ?_⟩
  · exact List.inj_on_of_nodup_map hinv.unique.1 ho' ho (Prod.ext hc hp)
  · apply hlater.invariant_under hinv fun _ _ _ h hstep => ownershipInvariant_exec h hstep
    · exact ho
    · exact fun _ _ _ h ho hstep => (ownershipStep_exec h hstep).published o ho hs

/-- Two publishers reserve two paths each and share one.  The insert of the first
    one waits for the second one, and its check then fails. -/
def overlapping : List (RowLocks.Event PublicationTransaction) :=
  [.begin 1 (.reservePaths ⟨"creator"⟩ ["a", "b"] ⟨"first"⟩),
    .begin 2 (.reservePaths ⟨"creator"⟩ ["c", "b"] ⟨"second"⟩),
    .statement 1 true, .statement 2 true, .statement 1 true, .statement 2 true, .statement 2 true,
    .statement 2 true, .commit 2, .statement 1 true, .abort 1]

/-- The second publisher has both of its paths, the first one has none. -/
theorem overlapping_owned : let E := Externals.constant (.replicate 7)
    ∃ s, Runs.execList (exec E) init overlapping = some s ∧
      s.rows =
        [⟨⟨"creator"⟩, "c", ⟨"second"⟩, .reserved⟩, ⟨⟨"creator"⟩, "b", ⟨"second"⟩, .reserved⟩] ∧
      ∀ e s', exec E s e = some s' → OwnershipStep s e s' := by
  intro E
  have h : (Runs.execList (exec E) init overlapping).any fun s => s.rows =
      [⟨⟨"creator"⟩, "c", ⟨"second"⟩, .reserved⟩, ⟨⟨"creator"⟩, "b", ⟨"second"⟩, .reserved⟩] := by
    decide +kernel
  obtain ⟨s, hs, hrows⟩ := (Option.any_eq_true _ _).1 h
  exact ⟨s, hs, of_decide_eq_true hrows, (paths_owned (Runs.run_of_execList _ hs)).2.1⟩

end PublicationSystem

end PubkyLocks
