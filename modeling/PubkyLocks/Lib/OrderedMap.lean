/-
  Ordered maps as association lists with increasing keys, over arbitrary keys
  and values.
-/
import Mathlib.Order.Lattice
import Mathlib.Data.List.Nodup

namespace OrderedMap

universe u v
variable {κ : Type u} {ν : Type v} [LinearOrder κ]

/-- The map with a value for a key. -/
def insert (k : κ) (v : ν) : List (κ × ν) → List (κ × ν)
  | [] => [(k, v)]
  | e :: m =>
    if k < e.1 then (k, v) :: e :: m
    else if k = e.1 then (k, v) :: m
    else e :: insert k v m

/-- The keys increase. -/
def Sorted (m : List (κ × ν)) : Prop := m.Pairwise fun a b => a.1 < b.1

/-- The value of a key. -/
def get? (m : List (κ × ν)) (k : κ) : Option ν := (m.find? fun e => e.1 = k).map Prod.snd

section
variable {m : List (κ × ν)} {k : κ} {v : ν} {e : κ × ν}

theorem sorted_iff : Sorted m ↔ (m.map Prod.fst).Pairwise (· < ·) := by
  rw [Sorted, List.pairwise_map]

theorem Sorted.nodup (h : Sorted m) : (m.map Prod.fst).Nodup :=
  (sorted_iff.1 h).imp ne_of_lt

theorem mem_of_mem_insert (h : e ∈ insert k v m) : e = (k, v) ∨ e ∈ m := by
  induction m with
  | nil => exact .inl (List.mem_singleton.1 h)
  | cons a m ih =>
    unfold insert at h
    split_ifs at h
    · exact List.mem_cons.1 h
    · rcases List.mem_cons.1 h with h | h
      · exact .inl h
      · exact .inr (List.mem_cons_of_mem _ h)
    · rcases List.mem_cons.1 h with rfl | h
      · exact .inr List.mem_cons_self
      · exact (ih h).imp_right (List.mem_cons_of_mem _)

/-- **An insertion keeps the order.** -/
theorem sorted_insert (h : Sorted m) : Sorted (insert k v m) := by
  induction m with
  | nil => exact List.pairwise_singleton _ _
  | cons a m ih =>
    obtain ⟨hhead, htail⟩ := List.pairwise_cons.1 h
    unfold insert
    split_ifs with hlt heq
    · refine List.pairwise_cons.2 ⟨fun b hb => ?_, h⟩
      rcases List.mem_cons.1 hb with rfl | hb
      · exact hlt
      · exact lt_trans hlt (hhead b hb)
    · exact List.pairwise_cons.2 ⟨fun b hb => heq ▸ hhead b hb, htail⟩
    · refine List.pairwise_cons.2 ⟨fun b hb => ?_, ih htail⟩
      rcases mem_of_mem_insert hb with rfl | hb
      · exact lt_of_le_of_ne (not_lt.1 hlt) (Ne.symm heq)
      · exact hhead b hb

/-- **The entries after an insertion**: the new one, and those of other keys. -/
theorem mem_insert (h : Sorted m) : e ∈ insert k v m ↔ e = (k, v) ∨ e ∈ m ∧ e.1 ≠ k := by
  induction m with
  | nil => simp [insert]
  | cons a m ih =>
    obtain ⟨hhead, htail⟩ := List.pairwise_cons.1 h
    unfold insert
    split_ifs with hlt heq
    · have hne : ∀ b ∈ a :: m, b.1 ≠ k := by
        intro b hb
        rcases List.mem_cons.1 hb with rfl | hb
        · exact ne_of_gt hlt
        · exact ne_of_gt (lt_trans hlt (hhead b hb))
      rw [List.mem_cons]
      exact or_congr_right ⟨fun he => ⟨he, hne e he⟩, And.left⟩
    · have hne : ∀ b ∈ m, b.1 ≠ k := fun b hb => heq ▸ ne_of_gt (hhead b hb)
      rw [List.mem_cons, List.mem_cons]
      refine or_congr_right ⟨fun he => ⟨.inr he, hne e he⟩, ?_⟩
      rintro ⟨rfl | he, hk⟩
      · exact absurd heq.symm hk
      · exact he
    · rw [List.mem_cons, List.mem_cons, ih htail]
      constructor
      · rintro (rfl | rfl | ⟨he, hk⟩)
        · exact .inr ⟨.inl rfl, Ne.symm heq⟩
        · exact .inl rfl
        · exact .inr ⟨.inr he, hk⟩
      · rintro (rfl | ⟨rfl | he, hk⟩)
        · exact .inr (.inl rfl)
        · exact .inl rfl
        · exact .inr (.inr ⟨he, hk⟩)

/-- **Lookup.**  A key has the value of its entry. -/
theorem get?_eq_some (h : Sorted m) : get? m k = some v ↔ (k, v) ∈ m := by
  unfold get?
  rw [Option.map_eq_some_iff]
  constructor
  · rintro ⟨⟨k', v'⟩, hfind, rfl⟩
    obtain rfl : k' = k := by simpa using List.find?_some hfind
    exact List.mem_of_find?_eq_some hfind
  · intro hmem
    obtain ⟨e, he⟩ := Option.isSome_iff_exists.1
      (List.find?_isSome (p := fun e : κ × ν => e.1 = k).2 ⟨_, hmem, by simp⟩)
    have hk : e.1 = k := by simpa using List.find?_some he
    refine ⟨e, he, ?_⟩
    have hsame := List.inj_on_of_nodup_map h.nodup (List.mem_of_find?_eq_some he) hmem hk
    rw [hsame]

end

end OrderedMap
