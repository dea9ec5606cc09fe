/-
  Labelled transition systems — runs, invariants along runs, runs restricted
  by a condition on their steps, and runs of an executable step function.
-/
import Mathlib.Data.Option.Basic

namespace Runs

universe u v
variable {σ : Type u} {α : Type v}

/-- The runs of `step`, with the actions taken, oldest first. -/
inductive Run (step : σ → α → σ → Prop) : σ → List α → σ → Prop
  | nil (s : σ) : Run step s [] s
  | snoc {s t w : σ} {as : List α} {a : α} : Run step s as t → step t a w → Run step s (as ++ [a]) w

/-- The run `as` from `s` to `t` takes a step from a state and with an action that
    meet `P`. -/
def Passes (step : σ → α → σ → Prop) (s : σ) (as : List α) (t : σ) (P : σ → α → Prop) : Prop :=
  ∃ before a after m, as = before ++ a :: after ∧ Run step s before m ∧ P m a ∧
    Run step m (a :: after) t

/-- The steps of `step` from a state and an action that meet `ok`. -/
def restrict (step : σ → α → σ → Prop) (ok : σ → α → Prop) (s : σ) (a : α) (t : σ) : Prop :=
  step s a t ∧ ok s a

/-- The steps of a partial function. -/
def ofExec (exec : σ → α → Option σ) (s : σ) (a : α) (t : σ) : Prop :=
  exec s a = some t

/-- The state reached by a list of actions, if every one of them is enabled. -/
def execList (exec : σ → α → Option σ) : σ → List α → Option σ
  | s, [] => some s
  | s, a :: as => (exec s a).bind fun t => execList exec t as

section
variable {step : σ → α → σ → Prop} {s t : σ} {as : List α}

/-- **Invariants.**  What every step keeps holds at the end of every run that
    starts in it. -/
theorem Run.invariant {I : σ → Prop} (h : Run step s as t) (h₀ : I s)
    (hstep : ∀ s a t, I s → step s a t → I t) : I t := by
  induction h with
  | nil => exact h₀
  | snoc _ hs ih => exact hstep _ _ _ ih hs

/-- A fact that the steps keep from states of an invariant holds at the end of every
    run that starts in both. -/
theorem Run.invariant_under {I P : σ → Prop} (h : Run step s as t) (h₀ : I s)
    (hI : ∀ s a t, I s → step s a t → I t) (hP : P s)
    (hstep : ∀ s a t, I s → P s → step s a t → P t) : P t :=
  (h.invariant (I := fun s => I s ∧ P s) ⟨h₀, hP⟩ fun s a t hs ha =>
    ⟨hI s a t hs.1 ha, hstep s a t hs.1 hs.2 ha⟩).2

theorem Run.mono {step' : σ → α → σ → Prop} (h : Run step s as t)
    (hsub : ∀ s a t, step s a t → step' s a t) : Run step' s as t := by
  induction h with
  | nil => exact .nil _
  | snoc _ hs ih => exact .snoc ih (hsub _ _ _ hs)

theorem Run.single {a : α} (h : step s a t) : Run step s [a] t :=
  .snoc (.nil s) h

theorem Run.append {w : σ} {bs : List α} (h : Run step s as t) (h' : Run step t bs w) :
    Run step s (as ++ bs) w := by
  induction h' with
  | nil => simpa using h
  | snoc _ hs ih => rw [← List.append_assoc]; exact .snoc ih hs

theorem Passes.snoc {w : σ} {a : α} {P : σ → α → Prop} (h : Passes step s as t P)
    (hs : step t a w) : Passes step s (as ++ [a]) w P := by
  obtain ⟨before, b, after, m, rfl, hbefore, hP, hafter⟩ := h
  refine ⟨before, b, after ++ [a], m, by simp, hbefore, hP, ?_⟩
  rw [← List.cons_append]
  exact .snoc hafter hs

theorem Run.passes {w : σ} {a : α} {P : σ → α → Prop} (h : Run step s as t) (hs : step t a w)
    (hP : P t a) : Passes step s (as ++ [a]) w P :=
  ⟨as, a, [], t, rfl, h, hP, .single hs⟩

theorem Passes.imp {P Q : σ → α → Prop} (h : Passes step s as t P) (hPQ : ∀ s a, P s a → Q s a) :
    Passes step s as t Q := by
  obtain ⟨before, a, after, m, has, hbefore, hP, hafter⟩ := h
  exact ⟨before, a, after, m, has, hbefore, hPQ m a hP, hafter⟩

theorem Run.restrict_mem (h : Run step s as t) : Run (restrict step fun _ a => a ∈ as) s as t := by
  induction h with
  | nil => exact .nil _
  | snoc _ hs ih =>
    refine .snoc (ih.mono fun s b t hb => ⟨hb.1, ?_⟩) ⟨hs, ?_⟩
    · exact List.mem_append_left _ hb.2
    · exact List.mem_append_right _ List.mem_cons_self

end

theorem run_of_execList (exec : σ → α → Option σ) :
    ∀ {as : List α} {s t : σ}, execList exec s as = some t → Run (ofExec exec) s as t
  | [], s, t, h => by
    rw [execList, Option.some.injEq] at h
    exact h ▸ .nil s
  | a :: as, s, t, h => by
    rw [execList, Option.bind_eq_some_iff] at h
    obtain ⟨w, hw, h⟩ := h
    have hs : Run (ofExec exec) s [a] w := .single hw
    exact hs.append (run_of_execList exec h)

/-- The partial function that refuses the actions that do not meet `ok`. -/
def guarded (exec : σ → α → Option σ) (ok : σ → α → Bool) (s : σ) (a : α) : Option σ :=
  if ok s a then exec s a else none

theorem run_of_guarded (exec : σ → α → Option σ) (ok : σ → α → Bool) {as : List α} {s t : σ}
    (h : execList (guarded exec ok) s as = some t) :
    Run (restrict (ofExec exec) fun s a => ok s a) s as t := by
  refine (run_of_execList (guarded exec ok) h).mono fun s a t hs => ?_
  simp only [ofExec, guarded] at hs
  split at hs
  · rename_i hok
    exact ⟨hs, hok⟩
  · cases hs

end Runs
