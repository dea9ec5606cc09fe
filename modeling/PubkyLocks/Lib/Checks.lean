/-
  Computations that may fail with an error: when a sequence of checks, a map
  or a change of the error succeeds.
-/
import Mathlib.Data.List.Basic

namespace Checks

universe u v w
variable {ε : Type u} {ε' : Type w} {α β : Type v}

variable {x : Except ε α} {f : α → Except ε Unit} {b : β} {a : α} {e : ε} {u : Unit} {o : Option α}

theorem bind_eq_ok {f : α → Except ε β} : x >>= f = .ok b ↔ ∃ a, x = .ok a ∧ f a = .ok b := by
  cases x with
  | error e => simp [bind, Except.bind]
  | ok a => simp [bind, Except.bind]

theorem seq_eq_ok {γ : Type} {x : Except ε Unit} {f : Unit → Except ε γ} {c : γ} :
    x >>= f = .ok c ↔ x = .ok () ∧ f () = .ok c := by
  cases x with
  | error e => simp [bind, Except.bind]
  | ok u => simp [bind, Except.bind]

theorem map_eq_ok {f : α → β} : x.map f = .ok b ↔ ∃ a, x = .ok a ∧ f a = b := by
  cases x with
  | error e => simp [Except.map]
  | ok a => simp [Except.map]

theorem mapError_eq_ok {f : ε → ε'} : x.mapError f = .ok a ↔ x = .ok a := by
  cases x with
  | error e => simp [Except.mapError]
  | ok a => simp [Except.mapError]

theorem pure_eq_ok {b : α} : (pure a : Except ε α) = .ok b ↔ a = b := by
  simp [pure, Except.pure]

theorem toOption_eq_some : x.toOption = some a ↔ x = .ok a := by
  cases x with
  | error e => simp [Except.toOption]
  | ok b => simp [Except.toOption]

theorem isOk_iff : x.isOk = true ↔ ∃ a, x = .ok a := by
  cases x with
  | error e => simp [Except.isOk, Except.toBool]
  | ok a => simp [Except.isOk, Except.toBool]

def refuse (p : Prop) [Decidable p] (e : ε) : Except ε Unit := if p then .error e else .ok ()

/-- The value that is present, or the error `e`. -/
def okOr (o : Option α) (e : ε) : Except ε α :=
  match o with
  | none => .error e
  | some a => .ok a

/-- Run the check on a value that is present. -/
def onSome (o : Option α) (f : α → Except ε Unit) : Except ε Unit :=
  match o with
  | none => .ok ()
  | some a => f a

/-- Run the check on every element, in order. -/
def checkAll (f : α → Except ε Unit) : List α → Except ε Unit
  | [] => .ok ()
  | a :: l => do
    f a
    checkAll f l

@[simp] theorem refuse_eq_ok {p : Prop} [Decidable p] : refuse p e = .ok u ↔ ¬ p := by
  by_cases h : p <;> simp [refuse, h]

@[simp] theorem okOr_eq_ok : okOr o e = .ok a ↔ o = some a := by
  cases o <;> simp [okOr]

@[simp] theorem onSome_eq_ok : onSome o f = .ok u ↔ ∀ a, o = some a → f a = .ok () := by
  cases o <;> simp [onSome]

@[simp] theorem checkAll_eq_ok :
    ∀ {l : List α} {u : Unit}, checkAll f l = .ok u ↔ ∀ a ∈ l, f a = .ok ()
  | [], u => by simp [checkAll]
  | a :: l, u => by
    have ih : checkAll f l = .ok u ↔ ∀ a ∈ l, f a = .ok () := checkAll_eq_ok
    rw [checkAll, bind_eq_ok, List.forall_mem_cons, ← ih]
    constructor
    · rintro ⟨⟨⟩, ha, hl⟩; exact ⟨ha, hl⟩
    · rintro ⟨ha, hl⟩; exact ⟨(), ha, hl⟩

end Checks
