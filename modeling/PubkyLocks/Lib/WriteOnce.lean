/-
  Write-once maps: what is written at a key is never changed or removed.
-/
import Mathlib.Data.List.Basic

namespace WriteOnce

universe u v
variable {κ : Type u} {α : Type v}

/-- A map from keys to values, as the list of its entries. -/
structure Store (κ : Type u) (α : Type v) where
  entries : List (κ × α)

namespace Store

section
variable [DecidableEq κ]

/-- The value at a key. -/
def read (s : Store κ α) (k : κ) : Option α :=
  (s.entries.find? fun e => e.1 == k).map (·.2)

/-- Write at a key that has no value yet. -/
def write (s : Store κ α) (k : κ) (a : α) : Store κ α :=
  if (s.read k).isSome then s else ⟨(k, a) :: s.entries⟩

/-- Every value of the first store is the value of the second one. -/
def Le (s t : Store κ α) : Prop :=
  ∀ k a, s.read k = some a → t.read k = some a

theorem Le.refl (s : Store κ α) : s.Le s := fun _ _ h => h

/-- **Writes** keep what is there. -/
theorem le_write (s : Store κ α) (k : κ) (a : α) : s.Le (s.write k a) := by
  intro j b h
  unfold write
  split
  · exact h
  · rename_i hk
    have hne : ¬ k = j := by
      rintro rfl
      rw [h] at hk
      exact hk rfl
    rw [read, List.find?_cons_of_neg (by simpa using hne)]
    exact h

end

end Store

end WriteOnce
