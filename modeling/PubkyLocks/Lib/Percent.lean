/-
  Percent-encoding of byte strings (RFC 3986, Section 2.1), and the UTF-8 bytes of
  texts.

  Both directions follow the documentation of the crate `percent-encoding`.  A byte
  of the set or outside ASCII is escaped as `%` and two uppercase hexadecimal digits.
  Decoding replaces every `%` that two digits follow, and leaves every other one.
-/
import Mathlib.Data.List.Basic

namespace Percent

/-! ## Texts -/

def bytes (l : List Char) : List UInt8 := l.flatMap String.utf8EncodeChar

/-- The text with the bytes, if they are UTF-8. -/
def text? (bs : List UInt8) : Option String := String.fromUTF8? bs.toByteArray

/-- The characters of ASCII bytes. -/
def ascii (bs : List UInt8) : List Char := bs.map fun b => Char.ofNat b.toNat

theorem bytes_append (l m : List Char) : bytes (l ++ m) = bytes l ++ bytes m :=
  List.flatMap_append

theorem text?_bytes (l : List Char) : text? (bytes l) = some (String.ofList l) := by
  have hvalid : (bytes l).toByteArray.IsValidUTF8 := ⟨l, rfl⟩
  rw [text?, String.fromUTF8?, dif_pos hvalid]
  rfl

theorem bytes_of_text? {bs : List UInt8} {s : String} (h : text? bs = some s) :
    bytes s.toList = bs := by
  rw [text?, String.fromUTF8?] at h
  split at h
  · rename_i hvalid
    obtain rfl := Option.some.inj h
    have henc : (String.fromUTF8 bs.toByteArray hvalid).toList.utf8Encode = bs.toByteArray :=
      String.utf8Encode_toList
    have hdata := congrArg (fun a : ByteArray => a.data.toList) henc
    simpa [List.utf8Encode, bytes] using hdata
  · cases h

theorem utf8EncodeChar_ascii : ∀ n : Fin 128,
    String.utf8EncodeChar (Char.ofNat n) = [UInt8.ofNat n] := by
  decide

theorem bytes_ascii {bs : List UInt8} (h : ∀ b ∈ bs, b < 128) : bytes (ascii bs) = bs := by
  induction bs with
  | nil => rfl
  | cons b bs ih =>
    rw [List.forall_mem_cons] at h
    have hb := utf8EncodeChar_ascii ⟨b.toNat, h.1⟩
    rw [UInt8.ofNat_toNat] at hb
    show String.utf8EncodeChar (Char.ofNat b.toNat) ++ bytes (ascii bs) = b :: bs
    rw [ih h.2, hb]
    rfl

/-! ## Escapes -/

/-- An uppercase hexadecimal digit. -/
def hexDigit (n : UInt8) : UInt8 := if n < 10 then 48 + n else 55 + n

/-- `char::to_digit(16)`. -/
def hexValue? (b : UInt8) : Option UInt8 :=
  if 48 ≤ b ∧ b ≤ 57 then some (b - 48)
  else if 65 ≤ b ∧ b ≤ 70 then some (b - 55)
  else if 97 ≤ b ∧ b ≤ 102 then some (b - 87)
  else none

/-- A byte, escaped if it is in the set or outside ASCII. -/
def encodeByte (set : UInt8 → Bool) (b : UInt8) : List UInt8 :=
  if 128 ≤ b || set b then [37, hexDigit (b / 16), hexDigit (b % 16)] else [b]

def encode (set : UInt8 → Bool) (bs : List UInt8) : List UInt8 := bs.flatMap (encodeByte set)

/-- `percent_decode`: every `%` that two hexadecimal digits follow is replaced. -/
def decode : List UInt8 → List UInt8
  | 37 :: h :: l :: bs => match hexValue? h, hexValue? l with
    | some a, some b => (a * 16 + b) :: decode bs
    | _, _ => 37 :: decode (h :: l :: bs)
  | b :: bs => b :: decode bs
  | [] => []

/-- The bytes hold an escape. -/
def hasEscape : List UInt8 → Bool
  | 37 :: h :: l :: bs =>
    (hexValue? h).isSome && (hexValue? l).isSome || hasEscape (h :: l :: bs)
  | _ :: bs => hasEscape bs
  | [] => false

theorem decode_cons {b : UInt8} (hb : b ≠ 37) (bs : List UInt8) :
    decode (b :: bs) = b :: decode bs := by
  rw [decode]
  rintro h l rest rfl -
  exact hb rfl

theorem hexValue_hexDigit {n : UInt8} (h : n < 16) : hexValue? (hexDigit n) = some n := by
  have hall : ∀ m : Fin 16, hexValue? (hexDigit (UInt8.ofNat m)) = some (UInt8.ofNat m) := by
    decide
  have hn := hall ⟨n.toNat, h⟩
  rw [UInt8.ofNat_toNat] at hn
  exact hn

theorem hexDigit_lt {n : UInt8} (h : n < 16) : hexDigit n < 128 := by
  have hall : ∀ m : Fin 16, hexDigit (UInt8.ofNat m) < 128 := by decide
  have hn := hall ⟨n.toNat, h⟩
  rw [UInt8.ofNat_toNat] at hn
  exact hn

theorem div_lt (b : UInt8) : b / 16 < 16 := by
  rw [UInt8.lt_iff_toNat_lt, UInt8.toNat_div]
  have := b.toNat_lt
  show b.toNat / 16 < 16
  omega

theorem mod_lt (b : UInt8) : b % 16 < 16 := by
  rw [UInt8.lt_iff_toNat_lt, UInt8.toNat_mod]
  exact Nat.mod_lt _ (by decide)

theorem div_mul_add_mod (b : UInt8) : b / 16 * 16 + b % 16 = b := by
  have hb := b.toNat_lt
  refine UInt8.toNat_inj.1 ?_
  rw [UInt8.toNat_add, UInt8.toNat_mul, UInt8.toNat_div, UInt8.toNat_mod]
  show (b.toNat / 16 * 16 % 256 + b.toNat % 16) % 256 = b.toNat
  omega

theorem decode_escape (b : UInt8) (bs : List UInt8) :
    decode (37 :: hexDigit (b / 16) :: hexDigit (b % 16) :: bs) = b :: decode bs := by
  rw [decode, hexValue_hexDigit (div_lt b), hexValue_hexDigit (mod_lt b)]
  show (b / 16 * 16 + b % 16) :: decode bs = b :: decode bs
  rw [div_mul_add_mod]

/-- **Decoding undoes encoding**, in front of any bytes. -/
theorem decode_encode_append {set : UInt8 → Bool} (hset : set 37 = true) (bs rest : List UInt8) :
    decode (encode set bs ++ rest) = bs ++ decode rest := by
  induction bs with
  | nil => rfl
  | cons b bs ih =>
    show decode ((encodeByte set b ++ encode set bs) ++ rest) = b :: (bs ++ decode rest)
    rw [List.append_assoc, ← ih]
    unfold encodeByte
    split
    · exact decode_escape b _
    · rename_i hb
      refine decode_cons ?_ _
      rintro rfl
      simp [hset] at hb

theorem encode_lt (set : UInt8 → Bool) (bs : List UInt8) : ∀ b ∈ encode set bs, b < 128 := by
  intro b hb
  obtain ⟨c, -, hc⟩ := List.mem_flatMap.1 hb
  unfold encodeByte at hc
  split at hc
  · simp only [List.mem_cons, List.not_mem_nil, or_false] at hc
    rcases hc with rfl | rfl | rfl
    · decide
    · exact hexDigit_lt (div_lt c)
    · exact hexDigit_lt (mod_lt c)
  · rename_i hn
    rw [List.mem_singleton.1 hc]
    simp only [Bool.or_eq_true, decide_eq_true_eq, not_or] at hn
    exact UInt8.not_le.1 hn.1

/-! ## Texts without escapes -/

theorem length_decode_le (bs : List UInt8) : (decode bs).length ≤ bs.length := by
  induction bs using decode.induct with
  | case1 h l bs a b hh hl ih =>
    rw [decode, hh, hl]
    simp only [List.length_cons]
    omega
  | case2 h l bs hn ih =>
    rw [decode]
    split
    · rename_i a b hh hl
      exact absurd hl (hn a b hh)
    · simp only [List.length_cons] at ih ⊢
      omega
  | case3 b bs hn ih =>
    rw [decode]
    · simp only [List.length_cons]
      omega
    · exact hn
  | case4 => exact Nat.le_refl _

theorem decode_cases (bs : List UInt8) : (hasEscape bs = true ∧ (decode bs).length < bs.length) ∨
      (hasEscape bs = false ∧ decode bs = bs) := by
  induction bs using decode.induct with
  | case1 h l bs a b hh hl ih =>
    have hle := length_decode_le bs
    refine .inl ⟨?_, ?_⟩
    · rw [hasEscape, hh, hl]
      rfl
    · rw [decode, hh, hl]
      simp only [List.length_cons]
      omega
  | case2 h l bs hn ih =>
    have hescape : hasEscape (37 :: h :: l :: bs) = hasEscape (h :: l :: bs) := by
      rw [hasEscape]
      cases hh : hexValue? h with
      | none => rfl
      | some a =>
        cases hl : hexValue? l with
        | none => rfl
        | some b => exact absurd hl (hn a b hh)
    have hdecode : decode (37 :: h :: l :: bs) = 37 :: decode (h :: l :: bs) := by
      rw [decode]
      split
      · rename_i a b hh hl
        exact absurd hl (hn a b hh)
      · rfl
    rw [hescape, hdecode]
    rcases ih with ⟨he, hlt⟩ | ⟨he, heq⟩
    · exact .inl ⟨he, Nat.succ_lt_succ hlt⟩
    · exact .inr ⟨he, congrArg _ heq⟩
  | case3 b bs hn ih =>
    rw [hasEscape, decode]
    · rcases ih with ⟨he, hlt⟩ | ⟨he, heq⟩
      · exact .inl ⟨he, Nat.succ_lt_succ hlt⟩
      · exact .inr ⟨he, congrArg _ heq⟩
    · exact hn
    · exact hn
  | case4 => exact .inr ⟨rfl, rfl⟩

/-- **Decoding a text again** changes it exactly if it holds an escape. -/
theorem decode_eq_self_iff {bs : List UInt8} : decode bs = bs ↔ hasEscape bs = false := by
  rcases decode_cases bs with ⟨he, hlt⟩ | ⟨he, heq⟩
  · constructor
    · intro h
      rw [h] at hlt
      exact absurd hlt (Nat.lt_irrefl _)
    · intro h
      cases he.symm.trans h
  · exact ⟨fun _ => he, fun _ => heq⟩

end Percent
