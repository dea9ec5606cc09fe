/-
  Calls that run side by side over one store — each call is a program with a
  local state; a step of a call reads and writes the store at once, and between
  two steps of a call any steps of the others are taken.  A call that stops is
  one that takes no further step.
-/
import PubkyLocks.Lib.Runs
import Mathlib.Algebra.Order.Group.Multiset
import Mathlib.Algebra.Order.BigOperators.Group.List
import Mathlib.Tactic.Abel

namespace Calls

variable {σ l ι ε τ : Type}

/-- Calls with local states `l` and inputs `ι` over a store `σ`. -/
structure Service (σ l ι ε : Type) where
  /-- The local states in which a call begins. -/
  starts : l → Bool
  /-- A step of a call; a finished call takes none. -/
  step : l → ι → σ → Option (l × σ)
  /-- A step of the store that is no call's. -/
  other : ε → σ → Option σ

/-- The store and the calls made so far, oldest first. -/
structure State (σ l : Type) where
  store : σ
  calls : List l

inductive Event (l ι ε : Type) where
  | begin (call : l)
  | step (n : ℕ) (input : ι)
  | other (e : ε)

def Service.exec (S : Service σ l ι ε) (s : State σ l) : Event l ι ε → Option (State σ l)
  | .begin call => if S.starts call then some { s with calls := s.calls ++ [call] } else none
  | .step n input => s.calls[n]?.bind fun call =>
      (S.step call input s.store).map fun next => ⟨next.2, s.calls.set n next.1⟩
  | .other e => (S.other e s.store).map fun store => { s with store }

abbrev Service.Run (S : Service σ l ι ε) := Runs.Run (Runs.ofExec S.exec)

section
variable {S : Service σ l ι ε} {s t : State σ l} {events : List (Event l ι ε)}

/-- **One step**: a new call, a step of a call, or a step of the store alone. -/
theorem exec_cases {e : Event l ι ε} (h : S.exec s e = some t) :
    (∃ call, e = .begin call ∧ S.starts call = true ∧ t = { s with calls := s.calls ++ [call] }) ∨
    (∃ n input call next store, e = .step n input ∧ s.calls[n]? = some call ∧
      S.step call input s.store = some (next, store) ∧ t = ⟨store, s.calls.set n next⟩) ∨
    ∃ o store, e = .other o ∧ S.other o s.store = some store ∧ t = { s with store } := by
  cases e with
  | begin call =>
    simp only [Service.exec] at h
    split at h
    · rename_i hstart
      exact .inl ⟨call, rfl, hstart, (Option.some.inj h).symm⟩
    · cases h
  | step n input =>
    obtain ⟨call, hcall, h⟩ := Option.bind_eq_some_iff.1 h
    obtain ⟨⟨next, store⟩, hstep, rfl⟩ := Option.map_eq_some_iff.1 h
    exact .inr (.inl ⟨n, input, call, next, store, rfl, hcall, hstep, rfl⟩)
  | other o =>
    obtain ⟨store, hother, rfl⟩ := Option.map_eq_some_iff.1 h
    exact .inr (.inr ⟨o, store, rfl, hother, rfl⟩)

theorem call_cases {e : Event l ι ε} (h : S.exec s e = some t) {n : ℕ} {call : l}
    (hn : t.calls[n]? = some call) :
    s.calls[n]? = some call ∨ S.starts call = true ∨
      ∃ input before store, e = .step n input ∧ s.calls[n]? = some before ∧
        S.step before input s.store = some (call, store) ∧ t.store = store := by
  rcases exec_cases h with ⟨c, rfl, hstart, rfl⟩ |
    ⟨m, input, before, next, store, rfl, hm, hstep, rfl⟩ | ⟨o, store, rfl, -, rfl⟩
  · rw [List.getElem?_append] at hn
    split at hn
    · exact .inl hn
    · obtain rfl := List.mem_singleton.1 (List.mem_of_getElem? hn)
      exact .inr (.inl hstart)
  · by_cases hmn : m = n
    · subst hmn
      obtain ⟨hlt, -⟩ := List.getElem?_eq_some_iff.1 hm
      rw [List.getElem?_set_self hlt, Option.some.injEq] at hn
      subst hn
      exact .inr (.inr ⟨input, before, store, rfl, hm, hstep, rfl⟩)
    · rw [List.getElem?_set_ne hmn] at hn
      exact .inl hn
  · exact .inl hn

/-- The run takes a step of the call at an index from outside of `B` into `B`. -/
def Enters (S : Service σ l ι ε) (s : State σ l) (events : List (Event l ι ε)) (t : State σ l)
    (n : ℕ) (B : l → Prop) : Prop :=
  Runs.Passes (Runs.ofExec S.exec) s events t fun m e => ∃ input before next store,
    e = .step n input ∧ m.calls[n]? = some before ∧ ¬ B before ∧ B next ∧
      S.step before input m.store = some (next, store)

/-- **Entries.**  A call that is in `B`, where no call begins, has entered it. -/
theorem enters_of_run {B : l → Prop} (hB : ∀ call, S.starts call = true → ¬ B call)
    (h : S.Run s events t) (hs : s.calls = []) {n : ℕ} {call : l} (hn : t.calls[n]? = some call)
    (hcall : B call) : Enters S s events t n B := by
  induction h generalizing call with
  | nil =>
    rw [hs] at hn
    cases hn
  | @snoc t w events e hrun hstep ih =>
    by_cases hbefore : ∃ before, t.calls[n]? = some before ∧ B before
    · obtain ⟨before, hn', hbefore⟩ := hbefore
      exact (ih hn' hbefore).snoc hstep
    · rcases call_cases hstep hn with hsame | hstart | ⟨input, before, store, rfl, hn', hcs, -⟩
      · exact absurd ⟨call, hsame, hcall⟩ hbefore
      · exact absurd hcall (hB call hstart)
      · exact hrun.passes hstep ⟨input, before, call, store, rfl, hn',
          fun hb => hbefore ⟨before, hn', hb⟩, hcall, hcs⟩

/-! ## Guarantees -/

/-- The store keeps `I`, each call keeps `J`, and what every step does to the
    store is `G`, under which the calls that take no step keep `J`. -/
structure Guarantees (S : Service σ l ι ε) (I : σ → Prop) (J : σ → l → Prop) (G : σ → σ → Prop) :
    Prop where
  start : ∀ {s call}, S.starts call = true → J s call
  step : ∀ {s t call next input}, I s → J s call → S.step call input s = some (next, t) →
    I t ∧ J t next ∧ G s t
  other : ∀ {s t o}, I s → S.other o s = some t → I t ∧ G s t
  stable : ∀ {s t call}, G s t → J s call → J t call

/-- **Rely and guarantee.**  The store and the calls keep their predicates along
    every run. -/
theorem Guarantees.of_run {I : σ → Prop} {J : σ → l → Prop} {G : σ → σ → Prop}
    (hg : Guarantees S I J G) (h : S.Run s events t) (hs : I s.store)
    (hcalls : ∀ call ∈ s.calls, J s.store call) :
    I t.store ∧ ∀ call ∈ t.calls, J t.store call := by
  refine h.invariant (I := fun s => I s.store ∧ ∀ call ∈ s.calls, J s.store call) ⟨hs, hcalls⟩ ?_
  rintro s e t ⟨hs, hcalls⟩ hstep
  rcases exec_cases hstep with ⟨call, rfl, hstart, rfl⟩ |
    ⟨n, input, call, next, store, rfl, hn, hcall, rfl⟩ | ⟨o, store, rfl, hother, rfl⟩
  · refine ⟨hs, fun c hc => ?_⟩
    rcases List.mem_append.1 hc with hc | hc
    · exact hcalls c hc
    · rw [List.mem_singleton.1 hc]
      exact hg.start hstart
  · obtain ⟨ht, hnext, hG⟩ := hg.step hs (hcalls call (List.mem_of_getElem? hn)) hcall
    refine ⟨ht, fun c hc => ?_⟩
    rcases List.mem_or_eq_of_mem_set hc with hc | rfl
    · exact hg.stable hG (hcalls c hc)
    · exact hnext
  · obtain ⟨ht, hG⟩ := hg.other hs hother
    exact ⟨ht, fun c hc => hg.stable hG (hcalls c hc)⟩

/-! ## Tokens -/

def total (f : l → Multiset τ) (calls : List l) : Multiset τ := (calls.map f).sum

theorem total_append (f : l → Multiset τ) (calls : List l) (call : l) :
    total f (calls ++ [call]) = total f calls + f call := by
  simp [total]

theorem total_set {f : l → Multiset τ} {calls : List l} {n : ℕ} {call : l}
    (h : calls[n]? = some call) :
    ∃ rest, total f calls = f call + rest ∧ ∀ next, total f (calls.set n next) = f next + rest := by
  induction calls generalizing n with
  | nil => simp at h
  | cons c calls ih =>
    cases n with
    | zero =>
      rw [List.getElem?_cons_zero, Option.some.injEq] at h
      subst h
      exact ⟨total f calls, by simp [total], fun next => by simp [total]⟩
    | succ n =>
      rw [List.getElem?_cons_succ] at h
      obtain ⟨rest, hsum, hset⟩ := ih h
      refine ⟨f c + rest, ?_, fun next => ?_⟩
      · have hcons : total f (c :: calls) = f c + total f calls := by simp [total]
        rw [hcons, hsum]
        abel
      · have hcons : total f ((c :: calls).set (n + 1) next) =
            f c + total f (calls.set n next) := by simp [total]
        rw [hcons, hset]
        abel

theorem total_mono {f g : l → Multiset τ} (h : ∀ call, f call ≤ g call) (calls : List l) :
    total f calls ≤ total g calls :=
  List.sum_le_sum fun call _ => h call

def token (o : Option τ) : Multiset τ := o.elim 0 ({·})

@[simp] theorem token_none : token (none : Option τ) = 0 := rfl

@[simp] theorem token_some (x : τ) : token (some x) = {x} := rfl

theorem total_filterMap (g : l → Option τ) (calls : List l) :
    total (fun call => token (g call)) calls = (calls.filterMap g : Multiset τ) := by
  induction calls with
  | nil => rfl
  | cons c calls ih =>
    have hcons : total (fun call => token (g call)) (c :: calls) =
        token (g c) + total (fun call => token (g call)) calls := by simp [total]
    rw [hcons, ih, List.filterMap_cons]
    cases g c with
    | none => exact zero_add _
    | some x => rfl

/-- Steps move the tokens that the store keeps and the calls hold, and make none
    but those they issue. -/
structure Conserves (S : Service σ l ι ε) (I : σ → Prop) (kept : σ → Multiset τ)
    (held issued : l → Multiset τ) : Prop where
  start : ∀ {call}, S.starts call = true → held call = 0
  step : ∀ {s t call next input}, I s → S.step call input s = some (next, t) →
    kept t + held next + issued call ≤ kept s + held call + issued next
  other : ∀ {s t o}, I s → S.other o s = some t → kept t ≤ kept s

/-- **Tokens.**  Along every run the tokens that are kept and held are among
    those that were issued. -/
theorem Conserves.of_run {I : σ → Prop} {kept : σ → Multiset τ} {held issued : l → Multiset τ}
    (hc : Conserves S I kept held issued)
    (hI : ∀ {s e t}, I s.store → S.exec s e = some t → I t.store) (h : S.Run s events t)
    (hs : I s.store) (htokens : kept s.store + total held s.calls ≤ total issued s.calls) :
    kept t.store + total held t.calls ≤ total issued t.calls := by
  refine (h.invariant (I := fun s => I s.store ∧
    kept s.store + total held s.calls ≤ total issued s.calls) ⟨hs, htokens⟩ ?_).2
  rintro s e t ⟨hs, hle⟩ hstep
  refine ⟨hI hs hstep, ?_⟩
  rcases exec_cases hstep with ⟨call, rfl, hstart, rfl⟩ |
    ⟨n, input, call, next, store, rfl, hn, hcall, rfl⟩ | ⟨o, store, rfl, hother, rfl⟩
  · rw [total_append, total_append, hc.start hstart, add_zero]
    exact hle.trans (Multiset.le_add_right _ _)
  · obtain ⟨rest, hheld, hheld'⟩ := total_set (f := held) hn
    obtain ⟨rest', hissued, hissued'⟩ := total_set (f := issued) hn
    rw [hheld, hissued] at hle
    rw [hheld', hissued']
    -- the step moves the tokens of one call; the others keep theirs
    have hmove := hc.step hs hcall
    have hsum : issued call + (kept store + (held next + rest)) ≤
        issued call + (issued next + rest') :=
      calc issued call + (kept store + (held next + rest))
          = kept store + held next + issued call + rest := by abel
        _ ≤ kept s.store + held call + issued next + rest := add_le_add_left hmove rest
        _ = kept s.store + (held call + rest) + issued next := by abel
        _ ≤ issued call + rest' + issued next := add_le_add_left hle (issued next)
        _ = issued call + (issued next + rest') := by abel
    exact le_of_add_le_add_left hsum
  · exact (add_le_add_left (hc.other hs hother) _).trans hle

theorem kept_eq_issued (kept : σ → Multiset τ) (issued : l → Multiset τ)
    (hstart : ∀ {call}, S.starts call = true → issued call = 0)
    (hstep : ∀ {s t call next input}, S.step call input s = some (next, t) →
      kept t + issued call = kept s + issued next)
    (hother : ∀ {s t o}, S.other o s = some t → kept t = kept s) (h : S.Run s events t)
    (hs : kept s.store = total issued s.calls) : kept t.store = total issued t.calls := by
  refine h.invariant (I := fun s => kept s.store = total issued s.calls) hs ?_
  intro s e t heq hexec
  rcases exec_cases hexec with ⟨call, rfl, hbegin, rfl⟩ |
    ⟨n, input, call, next, store, rfl, hn, hcall, rfl⟩ | ⟨o, store, rfl, ho, rfl⟩
  · rw [total_append, hstart hbegin, add_zero]
    exact heq
  · obtain ⟨rest, hissued, hissued'⟩ := total_set (f := issued) hn
    rw [hissued] at heq
    rw [hissued']
    refine add_right_cancel (b := issued call) ?_
    calc kept store + issued call = kept s.store + issued next := hstep hcall
      _ = issued call + rest + issued next := by rw [heq]
      _ = issued next + rest + issued call := by abel
  · exact (hother ho).trans heq

end

end Calls
