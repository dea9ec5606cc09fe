/-
  Text operations of the Rust standard library and of Postgres, on the list of
  characters of a string: white space and trimming, infixes, and
  the parsing of unsigned decimals.
-/
import Mathlib.Data.List.DropRight
import Mathlib.Algebra.Group.Nat.Defs

namespace Text

/-- `char::is_whitespace`: the Unicode `White_Space` property. -/
def isWhitespace (c : Char) : Bool :=
  let n := c.toNat
  (9 ≤ n && n ≤ 13) || n == 0x20 || n == 0x85 || n == 0xA0 || n == 0x1680 ||
    (0x2000 ≤ n && n ≤ 0x200A) || n == 0x2028 || n == 0x2029 || n == 0x202F || n == 0x205F ||
    n == 0x3000

def isAsciiDigit (c : Char) : Bool :=
  48 ≤ c.toNat && c.toNat ≤ 57

/-- Drop the characters of `p` at both ends. -/
def trimList (p : Char → Bool) (l : List Char) : List Char :=
  (l.dropWhile p).rdropWhile p

def trim (s : String) : String :=
  String.ofList (trimList isWhitespace s.toList)

/-- Postgres `btrim`: only spaces are removed. -/
def btrim (s : String) : String :=
  String.ofList (trimList (· == ' ') s.toList)

def startsWith (s p : String) : Bool :=
  p.toList.isPrefixOf s.toList

def contains (s p : String) : Bool :=
  s.toList.tails.any fun t => p.toList.isPrefixOf t

/-- `str::parse::<u64>`: an optional `+`, then a non-empty list of decimal
    digits whose value fits in 64 bits. -/
def parseU64 (s : String) : Option Nat :=
  let digits := match s.toList with
    | '+' :: l => l
    | l => l
  if digits.isEmpty || !digits.all isAsciiDigit then none
  else
    let n := digits.foldl (fun n c => 10 * n + (c.toNat - 48)) 0
    if n < 2 ^ 64 then some n else none

theorem all_of_trimList_nil (p : Char → Bool) {l : List Char} (h : trimList p l = []) :
    ∀ c ∈ l, p c := by
  rw [trimList, List.rdropWhile_eq_nil_iff] at h
  -- what `dropWhile` leaves starts with a character outside `p`, unless it is empty
  have hnil : l.dropWhile p = [] := by
    rcases hd : l.dropWhile p with _ | ⟨c, cs⟩
    · rfl
    · have hc : p c = false := by
        have := List.head?_dropWhile_not p l
        rw [hd] at this
        simpa using this
      have := h c (by simp [hd])
      simp [this] at hc
  rw [List.dropWhile_eq_nil_iff] at hnil
  exact hnil

theorem trim_trim_ne_empty {s : String} (h : trim s ≠ "") : trim (trim s) ≠ "" := by
  intro hb
  have hnil : trimList isWhitespace (trim s).toList = [] := by
    have := congrArg String.toList hb
    simpa [trim] using this
  have hall := all_of_trimList_nil _ hnil
  have hne : trimList isWhitespace s.toList ≠ [] := by
    intro hl
    exact h (by rw [trim, hl])
  -- the last character that `rdropWhile` leaves is not white space
  have hlast := List.rdropWhile_last_not isWhitespace (s.toList.dropWhile isWhitespace) hne
  refine hlast (hall _ ?_)
  rw [trim, String.toList_ofList]
  exact List.getLast_mem hne

theorem btrim_ne_empty {s : String} (h : trim s ≠ "") : btrim s ≠ "" := by
  intro hb
  apply h
  have hnil : trimList (· == ' ') s.toList = [] := by
    have := congrArg String.toList hb
    simpa [btrim] using this
  have hall := all_of_trimList_nil _ hnil
  have : ∀ c ∈ s.toList, isWhitespace c := by
    intro c hc
    have := hall c hc
    rw [beq_iff_eq] at this
    subst this
    decide
  rw [trim, trimList, List.dropWhile_eq_nil_iff.2 this]
  rfl

end Text
