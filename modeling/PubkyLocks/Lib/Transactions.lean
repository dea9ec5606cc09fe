/-
  Transactions that take advisory locks, check what they read and write at
  their commit, over arbitrary states, lock keys and labels.

  A `Program` takes its locks before its first check, makes its checks one at a
  time, each on the committed state of that moment, and writes when it commits.
  `exec` interleaves any number of them: between two checks, and between the
  last check and the write, other transactions may commit.  `Program.run` is the
  same program taken in one step.
-/
import Mathlib.Data.List.Pairwise

namespace Transactions

universe u v w
variable {σ : Type u} {κ : Type v} {ι : Type w}

/-- The locks, the checks and the write of a transaction. -/
structure Program (σ : Type u) (κ : Type v) where
  locks : List κ
  checks : List (σ → Bool)
  write : σ → Option σ

def Program.run (p : Program σ κ) (s : σ) : Option σ :=
  if p.checks.all (· s) then p.write s else none

theorem Program.run_eq_some {p : Program σ κ} {s t : σ} :
    p.run s = some t ↔ (∀ c ∈ p.checks, c s) ∧ p.write s = some t := by
  unfold Program.run
  by_cases h : p.checks.all (· s)
  · rw [if_pos h]
    rw [List.all_eq_true] at h
    exact ⟨fun hw => ⟨h, hw⟩, fun hw => hw.2⟩
  · rw [if_neg h]
    rw [List.all_eq_true] at h
    exact ⟨fun hn => (by cases hn), fun hw => absurd hw.1 h⟩

/-- An open transaction: its label and the number of checks it has passed. -/
structure Open (ι : Type w) where
  id : ℕ
  label : ι
  passed : ℕ

/-- The committed state and the open transactions. -/
structure State (σ : Type u) (ι : Type w) where
  db : σ
  active : List (Open ι)

inductive Event (ι : Type w) where
  | begin (id : ℕ) (label : ι)
  | check (id : ℕ)
  | commit (id : ℕ)
  | abort (id : ℕ)

section
variable [DecidableEq κ] (prog : ι → Program σ κ)

/-- No open transaction has the id. -/
def State.free (s : State σ ι) (id : ℕ) : Bool := s.active.all (·.id != id)

/-- No open transaction holds one of the locks. -/
def State.available (s : State σ ι) (locks : List κ) : Bool :=
  s.active.all fun t => (prog t.label).locks.all fun k => !locks.contains k

def State.without (s : State σ ι) (id : ℕ) : List (Open ι) := s.active.filter (·.id != id)

/-- One event; `none` if it is not enabled. -/
def exec (s : State σ ι) : Event ι → Option (State σ ι)
  | .begin id label =>
    if s.free id && s.available prog (prog label).locks then
      some { s with active := ⟨id, label, 0⟩ :: s.active }
    else none
  | .check id =>
    match s.active.find? (·.id == id) with
    | none => none
    | some t =>
      match (prog t.label).checks[t.passed]? with
      | none => none
      | some c =>
        if c s.db then some { s with active := { t with passed := t.passed + 1 } :: s.without id }
        else none
  | .commit id =>
    match s.active.find? (·.id == id) with
    | none => none
    | some t =>
      if t.passed = (prog t.label).checks.length then
        ((prog t.label).write s.db).map fun db => { db, active := s.without id }
      else none
  | .abort id =>
    if s.free id then none else some { s with active := s.without id }

variable {prog}

variable {s s' : State σ ι} {e : Event ι} {a b : Open ι}

/-- **What one event does**: it opens a transaction whose locks are available,
    lets an open one pass its next check, or closes one, with its write or
    without. -/
theorem exec_cases (h : exec prog s e = some s') :
    (∃ id label, e = .begin id label ∧ s.free id ∧ s.available prog (prog label).locks ∧
      s' = ⟨s.db, ⟨id, label, 0⟩ :: s.active⟩) ∨
    (∃ t ∈ s.active, ∃ c, e = .check t.id ∧ (prog t.label).checks[t.passed]? = some c ∧ c s.db ∧
      s' = ⟨s.db, { t with passed := t.passed + 1 } :: s.without t.id⟩) ∨
    (∃ t ∈ s.active, e = .commit t.id ∧ t.passed = (prog t.label).checks.length ∧
      (prog t.label).write s.db = some s'.db ∧ s'.active = s.without t.id) ∨
    (∃ id, e = .abort id ∧ s' = ⟨s.db, s.without id⟩) := by
  cases e with
  | begin id label =>
    simp only [exec] at h
    split at h
    · rename_i hc
      rw [Bool.and_eq_true] at hc
      cases h
      exact .inl ⟨id, label, rfl, hc.1, hc.2, rfl⟩
    · cases h
  | check id =>
    simp only [exec] at h
    split at h
    · cases h
    · rename_i t ht
      have hid : t.id = id := by simpa using List.find?_some ht
      subst hid
      split at h
      · cases h
      · rename_i c hc
        split at h
        · rename_i hcs
          cases h
          exact .inr (.inl ⟨t, List.mem_of_find?_eq_some ht, c, rfl, hc, hcs, rfl⟩)
        · cases h
  | commit id =>
    simp only [exec] at h
    split at h
    · cases h
    · rename_i t ht
      have hid : t.id = id := by simpa using List.find?_some ht
      subst hid
      split at h
      · rename_i hp
        obtain ⟨db, hw, rfl⟩ := Option.map_eq_some_iff.1 h
        exact .inr (.inr (.inl ⟨t, List.mem_of_find?_eq_some ht, rfl, hp, hw, rfl⟩))
      · cases h
  | abort id =>
    simp only [exec] at h
    split at h
    · cases h
    · cases h
      exact .inr (.inr (.inr ⟨id, rfl, rfl⟩))

variable (prog)

/-- No two open transactions have an id or a lock in common. -/
def Exclusive (s : State σ ι) : Prop :=
  s.active.Pairwise fun a b =>
    a.id ≠ b.id ∧ ∀ k ∈ (prog a.label).locks, k ∉ (prog b.label).locks

variable {prog}

omit [DecidableEq κ] in
theorem Exclusive.apart (hs : Exclusive prog s) (ha : a ∈ s.active)
    (hb : b ∈ s.active) (hab : a ≠ b) :
    a.id ≠ b.id ∧ ∀ k ∈ (prog a.label).locks, k ∉ (prog b.label).locks := by
  have hsymm : Std.Symm fun a b : Open ι =>
      a.id ≠ b.id ∧ ∀ k ∈ (prog a.label).locks, k ∉ (prog b.label).locks :=
    ⟨fun _ _ h => ⟨h.1.symm, fun k hk hk' => h.2 k hk' hk⟩⟩
  exact List.Pairwise.forall hs ha hb hab

/-- **Mutual exclusion.**  Every event keeps the open transactions exclusive. -/
theorem exclusive_exec (hs : Exclusive prog s)
    (h : exec prog s e = some s') : Exclusive prog s' := by
  have hwithout : ∀ id, (s.without id).Pairwise fun a b =>
      a.id ≠ b.id ∧ ∀ k ∈ (prog a.label).locks, k ∉ (prog b.label).locks :=
    fun id => List.Pairwise.filter _ hs
  rcases exec_cases h with ⟨id, label, -, hfree, havail, rfl⟩ | ⟨t, ht, c, -, -, -, rfl⟩ |
    ⟨t, -, -, -, -, hact⟩ | ⟨id, -, rfl⟩
  · refine List.pairwise_cons.2 ⟨fun b hb => ⟨?_, fun k hk hk' => ?_⟩, hs⟩
    · have := List.all_eq_true.1 hfree b hb
      exact fun he => (by simp [← he] at this)
    · have := List.all_eq_true.1 (List.all_eq_true.1 havail b hb) k hk'
      simp [hk] at this
  · refine List.pairwise_cons.2 ⟨fun b hb => ?_, hwithout t.id⟩
    obtain ⟨hb, hne⟩ := List.mem_filter.1 hb
    have hne : t ≠ b := fun he => by simp [he] at hne
    have hapart := hs.apart ht hb hne
    exact hapart
  · unfold Exclusive
    rw [hact]
    exact hwithout t.id
  · exact hwithout id

omit [DecidableEq κ] in
theorem Exclusive.eq_of_lock (hs : Exclusive prog s)
    (ha : a ∈ s.active) (hb : b ∈ s.active) {k : κ} (hka : k ∈ (prog a.label).locks)
    (hkb : k ∈ (prog b.label).locks) : a = b := by
  by_contra hab
  exact (hs.apart ha hb hab).2 k hka hkb

/-- Every open transaction relies on `know`, for its label and the number of
    checks it has passed. -/
def Knows (know : ι → ℕ → σ → Prop) (s : State σ ι) : Prop :=
  ∀ t ∈ s.active, know t.label t.passed s.db

/-- **Knowledge.**  What a transaction knows when it begins, learns from its
    checks and keeps while the others commit, it knows in every run. -/
theorem knows_exec {know : ι → ℕ → σ → Prop} (hs : Knows know s) (h : exec prog s e = some s')
    (hbegin : ∀ id label, e = .begin id label → know label 0 s.db)
    (hcheck : ∀ t ∈ s.active, ∀ c, (prog t.label).checks[t.passed]? = some c → c s.db →
      know t.label t.passed s.db → know t.label (t.passed + 1) s.db)
    (hcommit : ∀ t ∈ s.active, t.passed = (prog t.label).checks.length →
      (prog t.label).write s.db = some s'.db → ∀ u ∈ s.active, u ≠ t →
      know u.label u.passed s.db → know u.label u.passed s'.db) : Knows know s' := by
  rcases exec_cases h with ⟨id, label, he, -, -, rfl⟩ | ⟨t, ht, c, -, hc, hdb, rfl⟩ |
    ⟨t, ht, -, hp, hw, hact⟩ | ⟨id, -, rfl⟩
  · intro u hu
    rcases List.mem_cons.1 hu with rfl | hu
    · exact hbegin id label he
    · exact hs u hu
  · intro u hu
    rcases List.mem_cons.1 hu with rfl | hu
    · exact hcheck t ht c hc hdb (hs t ht)
    · exact hs u (List.mem_filter.1 hu).1
  · intro u hu
    rw [hact] at hu
    obtain ⟨hu, hne⟩ := List.mem_filter.1 hu
    refine hcommit t ht hp hw u hu ?_ (hs u hu)
    rintro rfl
    simp at hne
  · exact fun u hu => hs u (List.mem_filter.1 hu).1

end

end Transactions
