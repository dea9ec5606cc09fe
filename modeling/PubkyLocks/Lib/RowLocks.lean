/-
  Transactions that write rows of a table statement by statement, over arbitrary
  rows, keys, shared states and labels.

  A `Program` takes its advisory locks, executes its statements one at a time and
  writes the shared state when it commits.  A row that a transaction has written
  is locked until the transaction ends: a statement that writes a row another
  transaction has written waits.  The other transactions see the rows of the
  last commit, a transaction sees its own writes over them (`view`).
-/
import Mathlib.Data.List.Nodup
import Mathlib.Data.List.Pairwise

namespace RowLocks

universe u v w x y
variable {σ : Type u} {κ : Type v} {ρ : Type w} {ν : Type x} {ι : Type y}

/-! ## Rows -/

inductive Write (ρ : Type w) (ν : Type x) where
  | insert (row : ν)
  | update (row : ν)
  | delete (k : ρ)

section
variable [DecidableEq ρ] (key : ν → ρ)

/-- The key of the row that is written. -/
def Write.target : Write ρ ν → ρ
  | insert row | update row => key row
  | delete k => k

/-- The rows after a write.  An insert does not look for other rows. -/
def Write.apply (rows : List ν) : Write ρ ν → List ν
  | insert row => row :: rows
  | update row => rows.map fun x => if key x = key row then row else x
  | delete k => rows.filter fun x => key x ≠ k

def view (rows : List ν) (writes : List (Write ρ ν)) : List ν :=
  writes.foldl (Write.apply key) rows

def slice (k : ρ) (rows : List ν) : List ν := rows.filter fun x => key x = k

def row? (rows : List ν) (k : ρ) : Option ν := rows.find? fun x => key x = k

variable {key} {k : ρ} {rows rows' : List ν}

theorem row?_eq_head? : row? key rows k = (slice key k rows).head? :=
  List.head?_filter.symm

theorem row?_of_slice (h : slice key k rows' = slice key k rows) :
    row? key rows' k = row? key rows k := by
  rw [row?_eq_head?, row?_eq_head?, h]

theorem row?_eq_some {r : ν} (h : row? key rows k = some r) : r ∈ rows ∧ key r = k :=
  ⟨List.mem_of_find?_eq_some h, by simpa using List.find?_some h⟩

theorem row?_eq_none : row? key rows k = none ↔ k ∉ rows.map key := by
  simp [row?, List.find?_eq_none]

theorem nodup_iff_slice : (rows.map key).Nodup ↔ ∀ k, (slice key k rows).length ≤ 1 := by
  rw [List.nodup_iff_count_le_one]
  refine forall_congr' fun k => ?_
  rw [List.count, List.countP_map, List.countP_eq_length_filter]
  rfl

theorem row?_of_mem (h : (rows.map key).Nodup) {r : ν} (hr : r ∈ rows) :
    row? key rows (key r) = some r := by
  cases hfind : row? key rows (key r) with
  | none => exact absurd (List.mem_map_of_mem hr) (row?_eq_none.1 hfind)
  | some q =>
    obtain ⟨hq, hkey⟩ := row?_eq_some hfind
    exact congrArg some (List.inj_on_of_nodup_map h hq hr hkey)

theorem row?_insert (row : ν) :
    row? key (Write.apply key rows (.insert row)) (key row) = some row :=
  List.find?_cons_of_pos (by simp)

theorem row?_delete : row? key (Write.apply key rows (.delete k)) k = none := by
  simp [row?, Write.apply, List.find?_eq_none]

theorem row?_update {row r : ν} (h : row? key rows (key row) = some r) :
    row? key (Write.apply key rows (.update row)) (key row) = some row := by
  cases hfind : row? key (Write.apply key rows (.update row)) (key row) with
  | none =>
    obtain ⟨hr, hkey⟩ := row?_eq_some h
    refine absurd (List.mem_map.2 ⟨row, ?_, rfl⟩) (row?_eq_none.1 hfind)
    exact List.mem_map.2 ⟨r, hr, if_pos hkey⟩
  | some q =>
    obtain ⟨hq, hkey⟩ := row?_eq_some hfind
    obtain ⟨x, -, rfl⟩ := List.mem_map.1 hq
    split
    · rfl
    · rename_i hx
      exact absurd (by rwa [if_neg hx] at hkey) hx

theorem slice_apply (w : Write ρ ν) : slice key k (w.apply key rows) =
    if w.target key = k then w.apply key (slice key k rows) else slice key k rows := by
  cases w with
  | insert row =>
    show List.filter _ (row :: rows) = _
    by_cases h : key row = k
    · rw [List.filter_cons_of_pos (by simpa using h)]
      exact (if_pos h).symm
    · rw [List.filter_cons_of_neg (by simpa using h)]
      exact (if_neg h).symm
  | update row =>
    show List.filter _ (rows.map _) = _
    have hkeys : (fun x => decide (key (if key x = key row then row else x) = k)) =
        fun x => decide (key x = k) := by
      funext x
      by_cases hx : key x = key row
      · rw [if_pos hx, hx]
      · rw [if_neg hx]
    rw [List.filter_map, Function.comp_def, hkeys]
    show (slice key k rows).map _ = if key row = k then _ else _
    by_cases h : key row = k
    · rw [if_pos h]
      rfl
    · rw [if_neg h]
      have hsame : ∀ x ∈ slice key k rows, (if key x = key row then row else x) = id x := by
        intro x hx
        refine if_neg fun he => h ?_
        rw [← he]
        simpa using (List.mem_filter.1 hx).2
      rw [List.map_congr_left hsame, List.map_id]
  | delete j =>
    show List.filter _ (rows.filter _) = if j = k then (slice key k rows).filter _ else _
    unfold slice
    rw [List.filter_filter]
    by_cases h : j = k
    · rw [if_pos h, List.filter_filter]
      exact List.filter_congr fun x _ => Bool.and_comm _ _
    · rw [if_neg h]
      refine List.filter_congr fun x _ => ?_
      by_cases hx : key x = k
      · simp [hx, Ne.symm h]
      · simp [hx]

/-- **One key.**  The rows of a key depend on its rows before and on the writes
    of the key. -/
theorem slice_view (writes : List (Write ρ ν)) : slice key k (view key rows writes) =
    view key (slice key k rows) (writes.filter fun w => w.target key = k) := by
  induction writes generalizing rows with
  | nil => rfl
  | cons w writes ih =>
    show slice key k (view key (w.apply key rows) writes) = _
    rw [ih, slice_apply]
    by_cases h : w.target key = k
    · rw [if_pos h, List.filter_cons_of_pos (by simpa using h)]
      rfl
    · rw [if_neg h, List.filter_cons_of_neg (by simpa using h)]

theorem slice_view_of_free {writes : List (Write ρ ν)} (h : ∀ w ∈ writes, w.target key ≠ k) :
    slice key k (view key rows writes) = slice key k rows := by
  have hnil : writes.filter (fun w => w.target key = k) = [] :=
    List.filter_eq_nil_iff.2 fun w hw => by simpa using h w hw
  rw [slice_view, hnil]
  rfl

theorem slice_view_congr {writes : List (Write ρ ν)} (h : slice key k rows' = slice key k rows) :
    slice key k (view key rows' writes) = slice key k (view key rows writes) := by
  rw [slice_view, slice_view, h]

theorem row?_view_of_free {writes : List (Write ρ ν)} (h : ∀ w ∈ writes, w.target key ≠ k) :
    row? key (view key rows writes) k = row? key rows k :=
  row?_of_slice (slice_view_of_free h)

theorem view_append (writes writes' : List (Write ρ ν)) :
    view key rows (writes ++ writes') = view key (view key rows writes) writes' :=
  List.foldl_append

end

/-! ## Programs -/

/-- What a statement reads: the shared state, the rows its transaction sees, the
    writes of its transaction, and whether its snapshot shows a row that it waited
    for. -/
structure Reads (σ : Type u) (ρ : Type w) (ν : Type x) where
  db : σ
  rows : List ν
  writes : List (Write ρ ν)
  fresh : Bool

/-- The advisory locks, the statements and the write of a transaction.  A
    statement fails or passes, and writes one row at most. -/
structure Program (σ : Type u) (κ : Type v) (ρ : Type w) (ν : Type x) where
  locks : List κ
  statements : List (Reads σ ρ ν → Option (Option (Write ρ ν)))
  write : σ → Option σ

/-- An open transaction: its label, the number of statements it has executed and
    its writes. -/
structure Open (ρ : Type w) (ν : Type x) (ι : Type y) where
  id : ℕ
  label : ι
  passed : ℕ
  writes : List (Write ρ ν)

/-- The committed state and the open transactions. -/
structure State (σ : Type u) (ρ : Type w) (ν : Type x) (ι : Type y) where
  db : σ
  rows : List ν
  active : List (Open ρ ν ι)

inductive Event (ι : Type y) where
  | begin (id : ℕ) (label : ι)
  | statement (id : ℕ) (fresh : Bool)
  | commit (id : ℕ)
  | abort (id : ℕ)

section
variable [DecidableEq κ] [DecidableEq ρ] (key : ν → ρ) (prog : ι → Program σ κ ρ ν)

/-- No open transaction has the id. -/
def State.free (s : State σ ρ ν ι) (id : ℕ) : Bool := s.active.all (·.id != id)

/-- No open transaction holds one of the locks. -/
def State.available (s : State σ ρ ν ι) (locks : List κ) : Bool :=
  s.active.all fun t => (prog t.label).locks.all fun k => !locks.contains k

def State.without (s : State σ ρ ν ι) (id : ℕ) : List (Open ρ ν ι) :=
  s.active.filter (·.id != id)

/-- Another open transaction has written the row. -/
def State.rowLocked (s : State σ ρ ν ι) (id : ℕ) (k : ρ) : Bool :=
  (s.without id).any fun t => t.writes.any fun w => w.target key = k

/-- What the next statement of an open transaction reads. -/
def State.reads (s : State σ ρ ν ι) (t : Open ρ ν ι) (fresh : Bool) : Reads σ ρ ν :=
  ⟨s.db, view key s.rows t.writes, t.writes, fresh⟩

/-- One event; `none` if it is not enabled. -/
def exec (s : State σ ρ ν ι) : Event ι → Option (State σ ρ ν ι)
  | .begin id label =>
    if s.free id && s.available prog (prog label).locks then
      some { s with active := ⟨id, label, 0, []⟩ :: s.active }
    else none
  | .statement id fresh =>
    match s.active.find? (·.id == id) with
    | none => none
    | some t =>
      match (prog t.label).statements[t.passed]? with
      | none => none
      | some st =>
        match st (s.reads key t fresh) with
        | none => none
        | some w =>
          if w.all fun w => !s.rowLocked key id (w.target key) then
            some { s with active :=
              ⟨id, t.label, t.passed + 1, t.writes ++ w.toList⟩ :: s.without id }
          else none
  | .commit id =>
    match s.active.find? (·.id == id) with
    | none => none
    | some t =>
      if t.passed = (prog t.label).statements.length then
        ((prog t.label).write s.db).map fun db =>
          { db, rows := view key s.rows t.writes, active := s.without id }
      else none
  | .abort id =>
    if s.free id then none else some { s with active := s.without id }

variable {key prog} {s s' : State σ ρ ν ι} {e : Event ι}

/-- **What one event does**: it opens a transaction whose locks are available,
    executes the next statement of an open one, whose row no other has written,
    or closes one, with its writes or without. -/
theorem exec_cases (h : exec key prog s e = some s') :
    (∃ id label, e = .begin id label ∧ s.free id ∧ s.available prog (prog label).locks ∧
      s' = ⟨s.db, s.rows, ⟨id, label, 0, []⟩ :: s.active⟩) ∨
    (∃ t ∈ s.active, ∃ fresh st w, e = .statement t.id fresh ∧
      (prog t.label).statements[t.passed]? = some st ∧ st (s.reads key t fresh) = some w ∧
      (∀ x, w = some x → s.rowLocked key t.id (x.target key) = false) ∧
      s' = ⟨s.db, s.rows, ⟨t.id, t.label, t.passed + 1, t.writes ++ w.toList⟩ :: s.without t.id⟩) ∨
    (∃ t ∈ s.active, e = .commit t.id ∧ t.passed = (prog t.label).statements.length ∧
      (prog t.label).write s.db = some s'.db ∧ s'.rows = view key s.rows t.writes ∧
      s'.active = s.without t.id) ∨
    (∃ id, e = .abort id ∧ s' = ⟨s.db, s.rows, s.without id⟩) := by
  cases e with
  | begin id label =>
    simp only [exec] at h
    split at h
    · rename_i hc
      rw [Bool.and_eq_true] at hc
      cases h
      exact .inl ⟨id, label, rfl, hc.1, hc.2, rfl⟩
    · cases h
  | statement id fresh =>
    simp only [exec] at h
    split at h
    · cases h
    · rename_i t ht
      have hid : t.id = id := by simpa using List.find?_some ht
      subst hid
      split at h
      · cases h
      · rename_i st hst
        split at h
        · cases h
        · rename_i w hw
          split at h
          · rename_i hfree
            cases h
            refine .inr (.inl
              ⟨t, List.mem_of_find?_eq_some ht, fresh, st, w, rfl, hst, hw, ?_, rfl⟩)
            rintro x rfl
            simpa using hfree
          · cases h
  | commit id =>
    simp only [exec] at h
    split at h
    · cases h
    · rename_i t ht
      have hid : t.id = id := by simpa using List.find?_some ht
      subst hid
      split at h
      · rename_i hp
        obtain ⟨db, hw, rfl⟩ := Option.map_eq_some_iff.1 h
        exact .inr (.inr (.inl ⟨t, List.mem_of_find?_eq_some ht, rfl, hp, hw, rfl, rfl⟩))
      · cases h
  | abort id =>
    simp only [exec] at h
    split at h
    · cases h
    · cases h
      exact .inr (.inr (.inr ⟨id, rfl, rfl⟩))

/-! ## Exclusion -/

variable (key prog)

/-- Two transactions have no id, no advisory lock and no written row in common. -/
def Apart (a b : Open ρ ν ι) : Prop :=
  a.id ≠ b.id ∧ (∀ k ∈ (prog a.label).locks, k ∉ (prog b.label).locks) ∧
    ∀ w ∈ a.writes, ∀ w' ∈ b.writes, w.target key ≠ w'.target key

/-- Any two open transactions are apart. -/
def Exclusive (s : State σ ρ ν ι) : Prop := s.active.Pairwise (Apart key prog)

variable {key prog}

omit [DecidableEq κ] [DecidableEq ρ] in
theorem Exclusive.apart (hs : Exclusive key prog s) {a b : Open ρ ν ι} (ha : a ∈ s.active)
    (hb : b ∈ s.active) (hab : a ≠ b) : Apart key prog a b := by
  have hsymm : Std.Symm (Apart key prog) :=
    ⟨fun _ _ h => ⟨h.1.symm, fun k hk hk' => h.2.1 k hk' hk,
      fun w hw w' hw' => (h.2.2 w' hw' w hw).symm⟩⟩
  exact List.Pairwise.forall hs ha hb hab

omit [DecidableEq κ] [DecidableEq ρ] in
theorem Exclusive.eq_of_id (hs : Exclusive key prog s) {a b : Open ρ ν ι} (ha : a ∈ s.active)
    (hb : b ∈ s.active) (hid : a.id = b.id) : a = b := by
  by_contra hab
  exact (hs.apart ha hb hab).1 hid

omit [DecidableEq κ] [DecidableEq ρ] in
theorem Exclusive.eq_of_lock (hs : Exclusive key prog s) {a b : Open ρ ν ι} (ha : a ∈ s.active)
    (hb : b ∈ s.active) {k : κ} (hka : k ∈ (prog a.label).locks) (hkb : k ∈ (prog b.label).locks) :
    a = b := by
  by_contra hab
  exact (hs.apart ha hb hab).2.1 k hka hkb

omit [DecidableEq ρ] in
theorem State.mem_without {id : ℕ} {t : Open ρ ν ι} :
    t ∈ s.without id ↔ t ∈ s.active ∧ t.id ≠ id := by
  rw [State.without, List.mem_filter, bne_iff_ne]

/-- **Mutual exclusion.**  Every event keeps the open transactions apart. -/
theorem exclusive_exec (hs : Exclusive key prog s) (h : exec key prog s e = some s') :
    Exclusive key prog s' := by
  have hwithout : ∀ id, (s.without id).Pairwise (Apart key prog) :=
    fun id => List.Pairwise.filter _ hs
  rcases exec_cases h with ⟨id, label, -, hfree, havail, rfl⟩ |
    ⟨t, ht, fresh, st, w, -, -, -, hrow, rfl⟩ | ⟨t, -, -, -, -, -, hact⟩ | ⟨id, -, rfl⟩
  · refine List.pairwise_cons.2 ⟨fun b hb => ⟨?_, fun k hk hk' => ?_, fun w hw => ?_⟩, hs⟩
    · have := List.all_eq_true.1 hfree b hb
      exact fun he => (by simp [← he] at this)
    · have := List.all_eq_true.1 (List.all_eq_true.1 havail b hb) k hk'
      simp [hk] at this
    · exact absurd hw List.not_mem_nil
  · refine List.pairwise_cons.2 ⟨fun b hb => ?_, hwithout t.id⟩
    obtain ⟨hmem, hid⟩ := State.mem_without.1 hb
    have hne : t ≠ b := fun he => hid (by rw [he])
    obtain ⟨-, hlocks, hwrites⟩ := hs.apart ht hmem hne
    refine ⟨hid.symm, hlocks, fun x hx y hy => ?_⟩
    rcases List.mem_append.1 hx with hx | hx
    · exact hwrites x hx y hy
    · -- the new write is one of a row that is not locked
      have hfree := hrow x (Option.mem_toList.1 hx)
      rw [State.rowLocked, List.any_eq_false] at hfree
      intro he
      refine hfree b hb (List.any_eq_true.2 ⟨y, hy, ?_⟩)
      simpa using he.symm
  · unfold Exclusive
    rw [hact]
    exact hwithout t.id
  · exact hwithout id

omit [DecidableEq κ] in
theorem Exclusive.slice_commit (hs : Exclusive key prog s) {t a : Open ρ ν ι} (ht : t ∈ s.active)
    (ha : a ∈ s.active) (hne : a ≠ t) {w : Write ρ ν} (hw : w ∈ a.writes) :
    slice key (w.target key) (view key s.rows t.writes) = slice key (w.target key) s.rows :=
  slice_view_of_free fun w' hw' => ((hs.apart ha ht hne).2.2 w hw w' hw').symm

/-! ## Knowledge -/

/-- Every open transaction relies on `know`, for its label, the number of
    statements it has executed, the committed state and its writes. -/
def Knows (know : ι → ℕ → σ → List ν → List (Write ρ ν) → Prop) (s : State σ ρ ν ι) : Prop :=
  ∀ t ∈ s.active, know t.label t.passed s.db s.rows t.writes

/-- **Knowledge.**  What a transaction knows when it begins, learns from its
    statements and keeps while the others commit, it knows in every run. -/
theorem knows_exec {know : ι → ℕ → σ → List ν → List (Write ρ ν) → Prop} (hs : Knows know s)
    (h : exec key prog s e = some s')
    (hbegin : ∀ id label, e = .begin id label → know label 0 s.db s.rows [])
    (hstatement : ∀ t ∈ s.active, ∀ fresh st w, (prog t.label).statements[t.passed]? = some st →
      st (s.reads key t fresh) = some w → know t.label t.passed s.db s.rows t.writes →
      know t.label (t.passed + 1) s.db s.rows (t.writes ++ w.toList))
    (hcommit : ∀ t ∈ s.active, t.passed = (prog t.label).statements.length →
      (prog t.label).write s.db = some s'.db → s'.rows = view key s.rows t.writes →
      ∀ a ∈ s.active, a ≠ t → know a.label a.passed s.db s.rows a.writes →
      know a.label a.passed s'.db s'.rows a.writes) : Knows know s' := by
  rcases exec_cases h with ⟨id, label, he, -, -, rfl⟩ |
    ⟨t, ht, fresh, st, w, -, hst, hw, -, rfl⟩ | ⟨t, ht, -, hp, hw, hrows, hact⟩ | ⟨id, -, rfl⟩
  · intro a ha
    rcases List.mem_cons.1 ha with rfl | ha
    · exact hbegin id label he
    · exact hs a ha
  · intro a ha
    rcases List.mem_cons.1 ha with rfl | ha
    · exact hstatement t ht fresh st w hst hw (hs t ht)
    · exact hs a (State.mem_without.1 ha).1
  · intro a ha
    rw [hact] at ha
    obtain ⟨ha, hne⟩ := State.mem_without.1 ha
    exact hcommit t ht hp hw hrows a ha (fun he => hne (by rw [he])) (hs a ha)
  · exact fun a ha => hs a (State.mem_without.1 ha).1

/-! ## Unique keys -/

variable (key) in
/-- Every key has one row at most, for the other transactions and for each open
    one. -/
def Unique (s : State σ ρ ν ι) : Prop :=
  (s.rows.map key).Nodup ∧ ∀ t ∈ s.active, ((view key s.rows t.writes).map key).Nodup

omit [DecidableEq κ] in
theorem nodup_apply {rows : List ν} (h : (rows.map key).Nodup) {w : Write ρ ν}
    (hw : ∀ row, w = .insert row → key row ∉ rows.map key) :
    ((w.apply key rows).map key).Nodup := by
  cases w with
  | insert row => exact List.nodup_cons.2 ⟨hw row rfl, h⟩
  | update row =>
    have hkeys : (rows.map fun x => if key x = key row then row else x).map key = rows.map key := by
      rw [List.map_map]
      refine List.map_congr_left fun x _ => ?_
      by_cases hx : key x = key row
      · simp [hx]
      · simp [hx]
    exact hkeys ▸ h
  | delete k => exact h.sublist (List.filter_sublist.map key)

/-- **Unique keys.**  They stay unique in every run of programs that insert only
    keys they do not see. -/
theorem unique_exec (hex : Exclusive key prog s) (hs : Unique key s)
    (h : exec key prog s e = some s')
    (hinsert : ∀ t ∈ s.active, ∀ fresh st row, (prog t.label).statements[t.passed]? = some st →
      st (s.reads key t fresh) = some (some (.insert row)) →
      key row ∉ (view key s.rows t.writes).map key) : Unique key s' := by
  rcases exec_cases h with ⟨id, label, -, -, -, rfl⟩ |
    ⟨t, ht, fresh, st, w, -, hst, hw, -, rfl⟩ | ⟨t, ht, -, -, -, hrows, hact⟩ | ⟨id, -, rfl⟩
  · refine ⟨hs.1, fun a ha => ?_⟩
    rcases List.mem_cons.1 ha with rfl | ha
    · exact hs.1
    · exact hs.2 a ha
  · refine ⟨hs.1, fun a ha => ?_⟩
    rcases List.mem_cons.1 ha with rfl | ha
    · show ((view key s.rows (t.writes ++ w.toList)).map key).Nodup
      rw [view_append]
      cases w with
      | none => exact hs.2 t ht
      | some x =>
        refine nodup_apply (hs.2 t ht) fun row he => hinsert t ht fresh st row hst ?_
        rw [hw, he]
    · exact hs.2 a (State.mem_without.1 ha).1
  · refine ⟨?_, fun a ha => ?_⟩
    · rw [hrows]
      exact hs.2 t ht
    · rw [hact] at ha
      obtain ⟨ha, hid⟩ := State.mem_without.1 ha
      have hne : a ≠ t := fun he => hid (by rw [he])
      rw [nodup_iff_slice]
      intro k
      by_cases hk : ∃ w ∈ a.writes, w.target key = k
      · obtain ⟨w, hw, rfl⟩ := hk
        rw [hrows, slice_view_congr (hex.slice_commit ht ha hne hw)]
        exact nodup_iff_slice.1 (hs.2 a ha) _
      · rw [slice_view_of_free fun w hw he => hk ⟨w, hw, he⟩, hrows]
        exact nodup_iff_slice.1 (hs.2 t ht) k
  · exact ⟨hs.1, fun a ha => hs.2 a (State.mem_without.1 ha).1⟩

end

end RowLocks
