/-
  Tables as lists of rows: `UPDATE ... WHERE ...` and `DELETE ... WHERE ...`
  over arbitrary rows, and what they keep.
-/
import Mathlib.Data.List.Nodup

namespace Table

universe u v
variable {α : Type u} {κ : Type v}

/-- Replace every row that meets `p` by its image under `f`. -/
def updateWhere (p : α → Bool) (f : α → α) (l : List α) : List α :=
  l.map fun x => if p x then f x else x

section
variable {p : α → Bool} {f : α → α} {l : List α}

theorem mem_updateWhere {y : α} :
    y ∈ updateWhere p f l ↔ ∃ x ∈ l, (p x = true ∧ y = f x) ∨ (p x = false ∧ y = x) := by
  unfold updateWhere
  rw [List.mem_map]
  constructor
  · rintro ⟨x, hx, rfl⟩
    refine ⟨x, hx, ?_⟩
    cases hp : p x with
    | true => exact .inl ⟨rfl, if_pos rfl⟩
    | false => exact .inr ⟨rfl, if_neg (by simp)⟩
  · rintro ⟨x, hx, ⟨hp, rfl⟩ | ⟨hp, rfl⟩⟩
    · exact ⟨x, hx, by rw [hp]; exact if_pos rfl⟩
    · exact ⟨y, hx, by rw [hp]; exact if_neg (by simp)⟩

/-- **Row invariants.**  A predicate of all rows is kept by an update that
    keeps it on the rows it touches. -/
theorem forall_mem_updateWhere {P Q : α → Prop} (h : ∀ x ∈ l, P x)
    (hf : ∀ x ∈ l, P x → p x = true → Q (f x)) (hq : ∀ x ∈ l, P x → p x = false → Q x) :
    ∀ y ∈ updateWhere p f l, Q y := by
  intro y hy
  obtain ⟨x, hx, ⟨hp, rfl⟩ | ⟨hp, rfl⟩⟩ := mem_updateWhere.1 hy
  · exact hf x hx (h x hx) hp
  · exact hq y hx (h y hx) hp

theorem map_updateWhere {k : α → κ} (hk : ∀ x ∈ l, p x = true → k (f x) = k x) :
    (updateWhere p f l).map k = l.map k := by
  unfold updateWhere
  rw [List.map_map]
  refine List.map_congr_left fun x hx => ?_
  cases hp : p x with
  | true => simpa [hp] using hk x hx hp
  | false => simp [hp]

/-- **Row steps.**  The rows before and after an update correspond, each by what
    the update does to it. -/
theorem forall₂_updateWhere {R : α → α → Prop} (hf : ∀ x ∈ l, p x = true → R x (f x))
    (hq : ∀ x ∈ l, p x = false → R x x) : List.Forall₂ R l (updateWhere p f l) := by
  refine List.forall₂_map_right_iff.2 (List.forall₂_same.2 fun x hx => ?_)
  cases hp : p x with
  | true => exact hf x hx hp
  | false => exact hq x hx hp

theorem exists_of_forall₂ {R : α → α → Prop} {m : List α} (h : List.Forall₂ R l m) {x : α}
    (hx : x ∈ l) : ∃ y ∈ m, R x y := by
  induction h with
  | nil => exact absurd hx List.not_mem_nil
  | @cons a b l m hab _ ih =>
    rcases List.mem_cons.1 hx with rfl | hx
    · exact ⟨b, List.mem_cons_self, hab⟩
    · obtain ⟨y, hy, hr⟩ := ih hx
      exact ⟨y, List.mem_cons_of_mem _ hy, hr⟩

theorem updateWhere_congr {q : α → Bool} (h : ∀ x ∈ l, p x = q x) :
    updateWhere p f l = updateWhere q f l :=
  List.map_congr_left fun x hx => by rw [h x hx]

theorem map_eq_of_map_eq {ν : Type*} {k : α → κ} {g : α → ν} (hg : ∀ x y, k x = k y → g x = g y) :
    ∀ {l m : List α}, l.map k = m.map k → l.map g = m.map g
  | [], [], _ => rfl
  | [], y :: m, h => by cases h
  | x :: l, [], h => by cases h
  | x :: l, y :: m, h => by
    obtain ⟨hxy, h⟩ := List.cons.inj h
    rw [List.map_cons, List.map_cons, hg x y hxy, map_eq_of_map_eq hg h]

theorem find?_updateWhere (hf : ∀ x, p x = true → p (f x) = true) :
    (updateWhere p f l).find? p = (l.find? p).map f := by
  induction l with
  | nil => rfl
  | cons x l ih =>
    by_cases hx : p x = true
    · simp [updateWhere, hx, hf x hx]
    · simpa [updateWhere, hx] using ih

theorem updateWhere_eq_self (h : ∀ x ∈ l, p x = false) : updateWhere p f l = l := by
  unfold updateWhere
  refine (List.map_congr_left fun x hx => ?_).trans (List.map_id l)
  simp [h x hx]

end

theorem length_le_one_of_pairwise {p : α → α → Prop} :
    ∀ {l : List α}, l.Pairwise p → (∀ x ∈ l, ∀ y ∈ l, ¬ p x y) → l.length ≤ 1
  | [], _, _ => by simp
  | [_], _, _ => by simp
  | x :: y :: _, hp, hn => absurd ((List.pairwise_cons.1 hp).1 y List.mem_cons_self)
      (hn x List.mem_cons_self y (List.mem_cons_of_mem _ List.mem_cons_self))

end Table
