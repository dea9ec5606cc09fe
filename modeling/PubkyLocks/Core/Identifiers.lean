/-
  Identifiers and their texts (`locks-core/src/ids.rs`).

  A lock id or a bundle id is parsed by decoding and encoding it again, so many texts
  are one id.  A lock resource is parsed by looking for its path inside the text, and
  SQL compares the texts of lock resources that it concatenates itself.
-/
import PubkyLocks.Core.Wire

namespace PubkyLocks

open Checks (refuse okOr)

inductive IdParseError where
  | invalidCrockfordLength (kind : String) (expected : ℕ)
  | containsSeparator (kind : String)
  | invalidCrockford (kind : String)
  | invalidPubkyIdentity
  | invalidContentLockPath
  | invalidPubkyLockResource
deriving DecidableEq, Repr

def IdParseError.message : IdParseError → String
  | invalidCrockfordLength kind expected =>
    kind ++ " must be " ++ toString expected ++ " Crockford-base32 characters"
  | containsSeparator kind => kind ++ " contains a readability separator"
  | invalidCrockford kind => kind ++ " is not valid Crockford base32"
  | invalidPubkyIdentity => "Pubky identity must be a valid pubky::PublicKey"
  | invalidContentLockPath => "content lock path must match /pub/app.locks/<lock_id>.json"
  | invalidPubkyLockResource =>
    "Pubky lock resource must match pubky<creator_pubky>/pub/app.locks/<lock_id>.json"

section
variable (C : Codec)

def Ids.parseCrockfordId (kind value : String) (encodedLen decodedLen : ℕ) :
    Except IdParseError String := do
  refuse (value.utf8ByteSize ≠ encodedLen) (.invalidCrockfordLength kind encodedLen)
  refuse (value.toList.contains '-') (.containsSeparator kind)
  let decoded ← okOr ((C.crockfordDecode value).filter (·.length = decodedLen))
    (.invalidCrockford kind)
  pure (crockfordEncode decoded)

def LockId.fromStr (value : String) : Except IdParseError LockId :=
  (Ids.parseCrockfordId C "lock id" value 52 32).map .mk

def BundleId.fromStr (value : String) : Except IdParseError BundleId :=
  (Ids.parseCrockfordId C "bundle id" value 26 16).map .mk

def BundleId.fromBytes (bytes : List UInt8) (_ : bytes.length = 16) : BundleId :=
  ⟨crockfordEncode bytes⟩

def CreatorPubky.fromStr (value : String) : Except IdParseError CreatorPubky :=
  (okOr (C.parsePubky value) .invalidPubkyIdentity).map .mk

/-- `ContentLockPath::from_str`, on characters. -/
def ContentLockPath.fromStr (value : List Char) : Except IdParseError ContentLockPath := do
  let lockId ← okOr ((value.dropPrefix? "/pub/app.locks/".toList).bind
    (·.dropSuffix? ".json".toList)) .invalidContentLockPath
  refuse (lockId.contains '/' || lockId.contains ':') .invalidContentLockPath
  let lockId ← (LockId.fromStr C (String.ofList lockId)).mapError
    fun _ => .invalidContentLockPath
  pure ⟨lockId⟩

/-- The text before the first occurrence of another one, and the rest (`find`, `split_at`). -/
def splitAtFirst (needle : List Char) : List Char → Option (List Char × List Char)
  | [] => if needle.isEmpty then some ([], []) else none
  | c :: cs => if needle.isPrefixOf (c :: cs) then some ([], c :: cs)
    else (splitAtFirst needle cs).map fun parts => (c :: parts.1, parts.2)

def PubkyLockResource.fromStr (value : String) : Except IdParseError PubkyLockResource := do
  refuse ("pubky://".toList.isPrefixOf value.toList) .invalidPubkyLockResource
  let (creator, path) ← okOr (splitAtFirst "/pub/app.locks/".toList value.toList)
    .invalidPubkyLockResource
  let creator ← (CreatorPubky.fromStr C (String.ofList creator)).mapError
    fun _ => .invalidPubkyLockResource
  let contentLockPath ← (ContentLockPath.fromStr C path).mapError
    fun _ => .invalidPubkyLockResource
  pure ⟨creator, contentLockPath⟩

end

def PubkyLockResource.display (r : PubkyLockResource) : String :=
  r.creator.text ++ r.contentLockPath.display

/-- `creator || '/pub/app.locks/' || lock_id || '.json'`. -/
def sqlLockResource (creator : CreatorPubky) (lockId : LockId) : String :=
  creator.text ++ "/pub/app.locks/" ++ lockId.text ++ ".json"

/-! ## Digits -/

variable {bytes : List UInt8}

theorem crockfordDigit_mem (n : ℕ) :
    crockfordDigit n ∈ "0123456789ABCDEFGHJKMNPQRSTVWXYZ".toList := by
  have hget : ∀ l : List Char, '0' ∈ l → (l[n]?).getD '0' ∈ l := by
    intro l hzero
    cases h : l[n]? with
    | none => exact hzero
    | some c => exact List.mem_of_getElem? h
  exact hget _ (by decide)

theorem mem_crockfordDigits {bits : List Bool} {c : Char} (h : c ∈ crockfordDigits bits) :
    c ∈ "0123456789ABCDEFGHJKMNPQRSTVWXYZ".toList := by
  induction bits using crockfordDigits.induct with
  | case1 => cases h
  | case2 b₁ b₂ b₃ b₄ b₅ bs ih =>
    rcases List.mem_cons.1 h with rfl | h
    · exact crockfordDigit_mem _
    · exact ih h
  | case3 bs hne hshort =>
    rw [crockfordDigits] at h
    · obtain rfl := List.mem_singleton.1 h
      exact crockfordDigit_mem _
    · exact hne
    · exact hshort

theorem length_crockfordDigits (bits : List Bool) :
    (crockfordDigits bits).length = (bits.length + 4) / 5 := by
  induction bits using crockfordDigits.induct with
  | case1 => rfl
  | case2 b₁ b₂ b₃ b₄ b₅ bs ih =>
    rw [crockfordDigits, List.length_cons, ih]
    simp only [List.length_cons]
    omega
  | case3 bs hne hshort =>
    rcases bs with _ | ⟨a, _ | ⟨b, _ | ⟨c, _ | ⟨d, _ | ⟨e, bs⟩⟩⟩⟩⟩
    · exact absurd rfl hne
    · simp [crockfordDigits]
    · simp [crockfordDigits]
    · simp [crockfordDigits]
    · simp [crockfordDigits]
    · exact absurd rfl (hshort a b c d e bs)

theorem mem_crockfordEncode {c : Char} (h : c ∈ (crockfordEncode bytes).toList) :
    c.utf8Size = 1 ∧ c ≠ '-' ∧ c ≠ '/' ∧ c ≠ ':' := by
  rw [crockfordEncode, String.toList_ofList] at h
  have hall : ∀ c ∈ "0123456789ABCDEFGHJKMNPQRSTVWXYZ".toList,
      c.utf8Size = 1 ∧ c ≠ '-' ∧ c ≠ '/' ∧ c ≠ ':' := by simp [Char.utf8Size]
  exact hall c (mem_crockfordDigits h)

theorem utf8Len_eq_length {l : List Char} (h : ∀ c ∈ l, c.utf8Size = 1) :
    String.utf8Len l = l.length := by
  induction l with
  | nil => rfl
  | cons c l ih =>
    rw [List.forall_mem_cons] at h
    rw [String.utf8Len_cons, ih h.2, h.1, List.length_cons]

theorem size_crockfordEncode (bytes : List UInt8) :
    (crockfordEncode bytes).utf8ByteSize = (8 * bytes.length + 4) / 5 := by
  have hbits : (bytes.flatMap byteBits).length = 8 * bytes.length := by
    induction bytes with
    | nil => rfl
    | cons b bytes ih =>
      rw [List.flatMap_cons, List.length_append, ih, List.length_cons]
      show 8 + 8 * bytes.length = _
      omega
  have hsize : ∀ c ∈ crockfordDigits (bytes.flatMap byteBits), c.utf8Size = 1 := by
    intro c hc
    have hmem : c ∈ (crockfordEncode bytes).toList := by
      rw [crockfordEncode, String.toList_ofList]
      exact hc
    exact (mem_crockfordEncode hmem).1
  rw [crockfordEncode, String.utf8ByteSize_ofList, utf8Len_eq_length hsize,
    length_crockfordDigits, hbits]

/-! ## Canonical texts -/

/-- Ids of `size` bytes: the text of an id is the encoding of the bytes that every
    accepted text of it decodes to, and it is accepted as this id. -/
structure CanonicalIds {I : Type} (decode : String → Option (List UInt8)) (size : ℕ)
    (fromStr : String → Except IdParseError I) (display : I → String)
    (fromBytes : (bytes : List UInt8) → bytes.length = size → I) : Prop where
  stored : ∀ value id, fromStr value = .ok id → ∃ bytes, decode value = some bytes ∧
    bytes.length = size ∧ display id = crockfordEncode bytes
  parsed : ∀ value id, fromStr value = .ok id → fromStr (display id) = .ok id
  equal : ∀ value value' id id', fromStr value = .ok id → fromStr value' = .ok id' →
    (id = id' ↔ decode value = decode value') ∧
      (display id = display id' ↔ decode value = decode value')
  injective : ∀ bytes bytes' h h', fromBytes bytes h = fromBytes bytes' h' → bytes = bytes'
  accepted : ∀ bytes h, fromStr (display (fromBytes bytes h)) = .ok (fromBytes bytes h)

variable {C : Codec} {kind value text : String} {len size : ℕ}

theorem Ids.parseCrockfordId_eq_ok :
    Ids.parseCrockfordId C kind value len size = .ok text ↔ value.utf8ByteSize = len ∧
      '-' ∉ value.toList ∧ ∃ bytes, C.crockfordDecode value = some bytes ∧
        bytes.length = size ∧ crockfordEncode bytes = text := by
  simp only [Ids.parseCrockfordId, Checks.seq_eq_ok, Checks.refuse_eq_ok, not_not,
    List.contains_iff_mem]
  rw [Checks.bind_eq_ok]
  simp only [Checks.okOr_eq_ok, Checks.pure_eq_ok, Option.filter_eq_some_iff,
    decide_eq_true_eq, and_assoc]

theorem Ids.parseCrockfordId_encode
    (hcodec : ∀ bytes, C.crockfordDecode (crockfordEncode bytes) = some bytes)
    (hsize : bytes.length = size) (hlen : len = (8 * size + 4) / 5) :
    Ids.parseCrockfordId C kind (crockfordEncode bytes) len size =
      .ok (crockfordEncode bytes) := by
  refine Ids.parseCrockfordId_eq_ok.2 ⟨?_, fun hsep => ?_, bytes, hcodec bytes, hsize, rfl⟩
  · rw [size_crockfordEncode, hsize, hlen]
  · exact (mem_crockfordEncode hsep).2.1 rfl

theorem canonicalIds {I : Type} {mk : String → I} {display : I → String}
    (hcodec : ∀ bytes, C.crockfordDecode (crockfordEncode bytes) = some bytes)
    (hdisplay : ∀ text, display (mk text) = text) (hlen : len = (8 * size + 4) / 5) :
    CanonicalIds C.crockfordDecode size
      (fun value => (Ids.parseCrockfordId C kind value len size).map mk) display
      fun bytes _ => mk (crockfordEncode bytes) := by
  have hstored : ∀ value id, (Ids.parseCrockfordId C kind value len size).map mk = .ok id →
      ∃ bytes, C.crockfordDecode value = some bytes ∧ bytes.length = size ∧
        id = mk (crockfordEncode bytes) := by
    intro value id h
    obtain ⟨text, htext, rfl⟩ := Checks.map_eq_ok.1 h
    obtain ⟨-, -, bytes, hdecode, hsize, rfl⟩ := Ids.parseCrockfordId_eq_ok.1 htext
    exact ⟨bytes, hdecode, hsize, rfl⟩
  have haccepted : ∀ bytes, bytes.length = size →
      (Ids.parseCrockfordId C kind (display (mk (crockfordEncode bytes))) len size).map mk =
        .ok (mk (crockfordEncode bytes)) := by
    intro bytes hsize
    rw [hdisplay, Ids.parseCrockfordId_encode hcodec hsize hlen]
    rfl
  have hencode : ∀ bytes bytes', crockfordEncode bytes = crockfordEncode bytes' ↔
      bytes = bytes' := by
    refine fun bytes bytes' => ⟨fun h => ?_, fun h => h ▸ rfl⟩
    have hdecode := congrArg C.crockfordDecode h
    rw [hcodec, hcodec] at hdecode
    exact Option.some.inj hdecode
  have hmk : ∀ text text', mk text = mk text' ↔ text = text' :=
    fun text text' => ⟨fun h => hdisplay text ▸ hdisplay text' ▸ congrArg display h,
      fun h => h ▸ rfl⟩
  refine ⟨fun value id h => ?_, fun value id h => ?_, fun value value' id id' h h' => ?_,
    fun bytes bytes' _ _ h => (hencode _ _).1 ((hmk _ _).1 h), haccepted⟩
  · obtain ⟨bytes, hdecode, hsize, rfl⟩ := hstored value id h
    exact ⟨bytes, hdecode, hsize, hdisplay _⟩
  · obtain ⟨bytes, -, hsize, rfl⟩ := hstored value id h
    exact haccepted bytes hsize
  · obtain ⟨bytes, hdecode, -, rfl⟩ := hstored value id h
    obtain ⟨bytes', hdecode', -, rfl⟩ := hstored value' id' h'
    rw [hdecode, hdecode', Option.some.injEq, hmk, hdisplay, hdisplay, hencode]
    exact ⟨.rfl, .rfl⟩

/-- **Lock and bundle ids are canonical** for every codec whose decoder inverts its
    encoder. -/
theorem ids_canonical (C : Codec)
    (hcodec : ∀ bytes, C.crockfordDecode (crockfordEncode bytes) = some bytes) :
    CanonicalIds C.crockfordDecode 32 (LockId.fromStr C) LockId.text
        (fun bytes size => LockId.fromHash ⟨bytes, size⟩) ∧
      CanonicalIds C.crockfordDecode 16 (BundleId.fromStr C) BundleId.text BundleId.fromBytes :=
  ⟨canonicalIds hcodec (fun _ => rfl) rfl, canonicalIds hcodec (fun _ => rfl) rfl⟩

/-! ## A decoder -/

/-- The value of a digit in either case; `I` and `L` are read as 1, `O` as 0. -/
def crockfordBits? (c : Char) : Option (List Bool) :=
  let value := match c.toUpper with
    | 'O' => some 0
    | 'I' | 'L' => some 1
    | c => "0123456789ABCDEFGHJKMNPQRSTVWXYZ".toList.idxOf? c
  value.map fun n => [4, 3, 2, 1, 0].map fun i => n.testBit i

/-- The bytes of a list of bits; a last shorter group is dropped. -/
def bitsBytes : List Bool → List UInt8
  | b₁ :: b₂ :: b₃ :: b₄ :: b₅ :: b₆ :: b₇ :: b₈ :: bs =>
    UInt8.ofNat (bitsValue [b₁, b₂, b₃, b₄, b₅, b₆, b₇, b₈]) :: bitsBytes bs
  | _ => []

def digitsBits : List Char → Option (List Bool)
  | [] => some []
  | c :: cs => do
    let bits ← crockfordBits? c
    let rest ← digitsBits cs
    some (bits ++ rest)

/-- A codec with a decoder of base32; the keys are the z-base-32 texts of 32 bytes. -/
def Codec.base32 : Codec :=
  { Codec.lenient with
    parsePubky := fun text =>
      if text.length == 52 &&
          text.toList.all "ybndrfg8ejkmcpqxot1uwisza345h769".toList.contains then
        some text
      else none
    crockfordDecode := fun text => (digitsBits text.toList).map bitsBytes }

theorem crockfordBits_digit : ∀ b₁ b₂ b₃ b₄ b₅ : Bool,
    crockfordBits? (crockfordDigit (bitsValue [b₁, b₂, b₃, b₄, b₅])) =
      some [b₁, b₂, b₃, b₄, b₅] := by
  decide +kernel

theorem digitsBits_crockfordDigits (bits : List Bool) :
    ∃ pad, digitsBits (crockfordDigits bits) = some (bits ++ pad) ∧ pad.length < 5 := by
  induction bits using crockfordDigits.induct with
  | case1 => exact ⟨[], rfl, by decide⟩
  | case2 b₁ b₂ b₃ b₄ b₅ bs ih =>
    obtain ⟨pad, hpad, hlt⟩ := ih
    refine ⟨pad, ?_, hlt⟩
    rw [crockfordDigits, digitsBits, crockfordBits_digit, hpad]
    rfl
  | case3 bs hne hshort =>
    refine ⟨List.replicate (5 - bs.length) false, ?_, ?_⟩
    · rcases bs with _ | ⟨a, _ | ⟨b, _ | ⟨c, _ | ⟨d, _ | ⟨e, bs⟩⟩⟩⟩⟩
      · exact absurd rfl hne
      · simp [crockfordDigits, digitsBits, crockfordBits_digit, List.replicate]
      · simp [crockfordDigits, digitsBits, crockfordBits_digit, List.replicate]
      · simp [crockfordDigits, digitsBits, crockfordBits_digit, List.replicate]
      · simp [crockfordDigits, digitsBits, crockfordBits_digit]
      · exact absurd rfl (hshort a b c d e bs)
    · have hpos := List.length_pos_iff.2 hne
      rw [List.length_replicate]
      omega

theorem bitsBytes_flatMap (bytes : List UInt8) {pad : List Bool} (hpad : pad.length < 8) :
    bitsBytes (bytes.flatMap byteBits ++ pad) = bytes := by
  induction bytes with
  | nil =>
    rw [List.flatMap_nil, List.nil_append, bitsBytes]
    rintro b₁ b₂ b₃ b₄ b₅ b₆ b₇ b₈ bs rfl
    simp only [List.length_cons] at hpad
    omega
  | cons b bytes ih =>
    have hall : ∀ n < 256, bitsValue ([7, 6, 5, 4, 3, 2, 1, 0].map fun i => n.testBit i) = n := by
      decide +kernel
    have hb : UInt8.ofNat (bitsValue (byteBits b)) = b := by
      rw [byteBits, hall _ b.toNat_lt, UInt8.ofNat_toNat]
    rw [List.flatMap_cons, List.append_assoc]
    show UInt8.ofNat (bitsValue (byteBits b)) :: bitsBytes (bytes.flatMap byteBits ++ pad) = _
    rw [hb, ih]

theorem Codec.base32_decode (bytes : List UInt8) :
    Codec.base32.crockfordDecode (crockfordEncode bytes) = some bytes := by
  obtain ⟨pad, hpad, hlt⟩ := digitsBits_crockfordDigits (bytes.flatMap byteBits)
  show (digitsBits (crockfordEncode bytes).toList).map bitsBytes = _
  rw [crockfordEncode, String.toList_ofList, hpad, Option.map_some,
    bitsBytes_flatMap bytes (by omega)]

theorem lowercase_accepted : let upper := "0G40R40M30E209185GR38E1W8Z"
    let lower := "og4or4om3oe2o9l85gr38e1w8z"
    ∃ id, BundleId.fromStr Codec.base32 upper = .ok id ∧
      BundleId.fromStr Codec.base32 lower = .ok id ∧
      BundleId.fromStr Codec.base32 id.text = .ok id := by
  intro upper lower
  have h := (ids_canonical Codec.base32 Codec.base32_decode).2
  have hupper : (BundleId.fromStr Codec.base32 upper).isOk := by decide +kernel
  have hlower : (BundleId.fromStr Codec.base32 lower).isOk := by decide +kernel
  obtain ⟨id, hid⟩ := Checks.isOk_iff.1 hupper
  obtain ⟨id', hid'⟩ := Checks.isOk_iff.1 hlower
  obtain rfl := (h.equal upper lower id id' hid hid').1.2 (by decide +kernel)
  exact ⟨id, hid, hid', h.parsed upper id hid⟩

/-! ## Lock resources -/

/-- A creator that the parser has returned. -/
def CreatorPubky.Valid (C : Codec) (creator : CreatorPubky) : Prop :=
  ∃ value, CreatorPubky.fromStr C value = .ok creator

/-- A lock id that the parser has returned, or the id of a hash. -/
def LockId.Valid (C : Codec) (lockId : LockId) : Prop :=
  (∃ value, LockId.fromStr C value = .ok lockId) ∨ ∃ hash, LockId.fromHash hash = lockId

theorem splitAtFirst_append {n : Char} {ns l rest : List Char} (hl : n ∉ l)
    (hrest : n :: ns <+: rest) : splitAtFirst (n :: ns) (l ++ rest) = some (l, rest) := by
  induction l with
  | nil =>
    obtain ⟨s, rfl⟩ := hrest
    rw [List.nil_append, List.cons_append, splitAtFirst, if_pos]
    exact List.isPrefixOf_iff_prefix.2 ⟨s, rfl⟩
  | cons c l ih =>
    rw [List.mem_cons, not_or] at hl
    rw [List.cons_append, splitAtFirst, if_neg, ih hl.2]
    · rfl
    · rw [List.isPrefixOf_iff_prefix, List.cons_prefix_cons]
      exact fun h => hl.1 h.1

variable {creator : CreatorPubky} {lockId : LockId} {r : PubkyLockResource}

section
variable (hcodec : ∀ bytes, C.crockfordDecode (crockfordEncode bytes) = some bytes)
include hcodec

theorem LockId.Valid.fromStr (h : lockId.Valid C) : LockId.fromStr C lockId.text = .ok lockId ∧
      ∃ bytes, lockId.text = crockfordEncode bytes := by
  have hids : CanonicalIds C.crockfordDecode 32 (LockId.fromStr C) LockId.text
      fun bytes size => LockId.fromHash ⟨bytes, size⟩ :=
    canonicalIds hcodec (fun _ => rfl) rfl
  rcases h with ⟨value, hvalue⟩ | ⟨hash, rfl⟩
  · obtain ⟨bytes, -, -, htext⟩ := hids.stored value lockId hvalue
    exact ⟨hids.parsed value lockId hvalue, bytes, htext⟩
  · exact ⟨hids.accepted hash.bytes hash.size, hash.bytes, rfl⟩

theorem ContentLockPath.fromStr_display (h : lockId.Valid C) :
    ContentLockPath.fromStr C (ContentLockPath.display ⟨lockId⟩).toList = .ok ⟨lockId⟩ := by
  obtain ⟨hparse, bytes, htext⟩ := h.fromStr hcodec
  have hstrip : ((ContentLockPath.display ⟨lockId⟩).toList.dropPrefix?
      "/pub/app.locks/".toList).bind (·.dropSuffix? ".json".toList) = some lockId.text.toList := by
    rw [ContentLockPath.display, String.toList_append, String.toList_append, List.append_assoc]
    rw [List.dropPrefix?_eq_some_iff.2 ⟨_, rfl, beq_self_eq_true _⟩]
    exact List.dropSuffix?_eq_some_iff.2 ⟨_, rfl, beq_self_eq_true _⟩
  have hplain : ∀ c ∈ lockId.text.toList, c ≠ '/' ∧ c ≠ ':' := by
    intro c hc
    rw [htext] at hc
    exact (mem_crockfordEncode hc).2.2
  rw [ContentLockPath.fromStr, hstrip, Checks.bind_eq_ok]
  refine ⟨_, rfl, Checks.seq_eq_ok.2 ⟨?_, ?_⟩⟩
  · rw [Checks.refuse_eq_ok, Bool.or_eq_true, List.contains_iff_mem, List.contains_iff_mem]
    rintro (hslash | hcolon)
    · exact (hplain _ hslash).1 rfl
    · exact (hplain _ hcolon).2 rfl
  · rw [String.ofList_toList, hparse]
    rfl

/-- **A lock resource is read back** from its text. -/
theorem PubkyLockResource.fromStr_display (hpubky : ∀ value key, C.parsePubky value = some key →
      C.parsePubky key = some key ∧ '/' ∉ key.toList)
    (hcreator : creator.Valid C) (hlock : lockId.Valid C) :
    PubkyLockResource.fromStr C (display (.of creator lockId)) = .ok (.of creator lockId) := by
  obtain ⟨value, hvalue⟩ := hcreator
  obtain ⟨key, hkey, rfl⟩ := Checks.map_eq_ok.1 hvalue
  obtain ⟨hparse, hslash⟩ := hpubky value key (Checks.okOr_eq_ok.1 hkey)
  have hpath := ContentLockPath.fromStr_display hcodec hlock
  have htext : (display (.of ⟨key⟩ lockId)).toList =
      key.toList ++ (ContentLockPath.display ⟨lockId⟩).toList := String.toList_append
  have hstart : "/pub/app.locks/".toList <+: (ContentLockPath.display ⟨lockId⟩).toList := by
    rw [ContentLockPath.display, String.toList_append, String.toList_append, List.append_assoc]
    exact List.prefix_append _ _
  have hsplit := splitAtFirst_append hslash hstart
  rw [PubkyLockResource.fromStr, htext]
  refine Checks.seq_eq_ok.2 ⟨?_, Checks.bind_eq_ok.2 ⟨_, Checks.okOr_eq_ok.2 hsplit, ?_⟩⟩
  · -- the first slash of the text is followed by `pub`, that of the scheme by a slash
    rw [Checks.refuse_eq_ok, List.isPrefixOf_iff_prefix]
    rintro ⟨s, hs⟩
    have hscheme : splitAtFirst ['/'] ("pubky:".toList ++ '/' :: '/' :: s) =
        some ("pubky:".toList, '/' :: '/' :: s) :=
      splitAtFirst_append (by decide) ⟨'/' :: s, rfl⟩
    obtain ⟨rest, hrest⟩ := hstart
    have hfirst : splitAtFirst ['/'] (key.toList ++ (ContentLockPath.display ⟨lockId⟩).toList) =
        some (key.toList, (ContentLockPath.display ⟨lockId⟩).toList) :=
      splitAtFirst_append hslash ⟨_, hrest⟩
    rw [← hs] at hfirst
    have heq := hscheme.symm.trans hfirst
    rw [← hrest] at heq
    simp at heq
  · dsimp only
    rw [String.ofList_toList, CreatorPubky.fromStr, hparse, hpath]
    rfl

end

/-- **The text of a lock resource is the resource.**  It is read back, also after other
    texts of it were accepted, and it is what SQL concatenates, so that the comparisons
    of `insert_job` and of the force receipts are comparisons of creator and lock id. -/
theorem lock_resources_canonical (C : Codec)
    (hcodec : ∀ bytes, C.crockfordDecode (crockfordEncode bytes) = some bytes)
    (hpubky : ∀ value key, C.parsePubky value = some key →
      C.parsePubky key = some key ∧ '/' ∉ key.toList) :
    (∀ creator lockId, creator.Valid C → lockId.Valid C →
      PubkyLockResource.fromStr C (PubkyLockResource.of creator lockId).display =
        .ok (.of creator lockId)) ∧
    (∀ r r' : PubkyLockResource, r.creator.Valid C → r.lockId.Valid C → r'.creator.Valid C →
      r'.lockId.Valid C → r.display = r'.display → r = r') ∧
    (∀ value r, PubkyLockResource.fromStr C value = .ok r →
      PubkyLockResource.fromStr C r.display = .ok r) ∧
    (∀ creator lockId,
      (PubkyLockResource.of creator lockId).display = sqlLockResource creator lockId) ∧
    ∀ (r : PubkyLockResource) (creator : CreatorPubky) (lockId : LockId), r.creator.Valid C →
      r.lockId.Valid C → creator.Valid C → lockId.Valid C →
      (r.display = sqlLockResource creator lockId ↔ r.creator = creator ∧ r.lockId = lockId) := by
  have hback : ∀ r : PubkyLockResource, r.creator.Valid C → r.lockId.Valid C →
      PubkyLockResource.fromStr C r.display = .ok r :=
    fun _ hc hl => PubkyLockResource.fromStr_display hcodec hpubky hc hl
  have hinj : ∀ r r' : PubkyLockResource, r.creator.Valid C → r.lockId.Valid C →
      r'.creator.Valid C → r'.lockId.Valid C → r.display = r'.display → r = r' := by
    intro r r' hc hl hc' hl' h
    have hr := hback r hc hl
    rw [h, hback r' hc' hl'] at hr
    exact (Except.ok.inj hr).symm
  have hsql : ∀ creator lockId,
      (PubkyLockResource.of creator lockId).display = sqlLockResource creator lockId := by
    intro creator lockId
    simp only [PubkyLockResource.display, PubkyLockResource.of, ContentLockPath.display,
      sqlLockResource, String.append_assoc]
  refine ⟨fun c l hc hl => hback (.of c l) hc hl, hinj, fun value r h => ?_, hsql,
    fun r c l hrc hrl hc hl => ⟨fun h => ?_, ?_⟩⟩
  · obtain ⟨-, h⟩ := Checks.seq_eq_ok.1 h
    obtain ⟨parts, -, h⟩ := Checks.bind_eq_ok.1 h
    obtain ⟨creator, hcreator, h⟩ := Checks.bind_eq_ok.1 h
    obtain ⟨path, hpath, h⟩ := Checks.bind_eq_ok.1 h
    cases h
    rw [Checks.mapError_eq_ok] at hcreator hpath
    obtain ⟨lockId, -, hpath⟩ := Checks.bind_eq_ok.1 hpath
    obtain ⟨-, hpath⟩ := Checks.seq_eq_ok.1 hpath
    obtain ⟨lockId, hlockId, hpath⟩ := Checks.bind_eq_ok.1 hpath
    cases hpath
    exact hback _ ⟨_, hcreator⟩ (.inl ⟨_, Checks.mapError_eq_ok.1 hlockId⟩)
  · rw [← hsql] at h
    obtain rfl := hinj r (.of c l) hrc hrl hc hl h
    exact ⟨rfl, rfl⟩
  · rintro ⟨rfl, rfl⟩
    exact hsql _ _

theorem address_read_back :
    let creator : CreatorPubky := ⟨"o1gg96ewuojmopcjbz8895478wdtxtzzuxnfjjz8o8e77csa1ngo"⟩
    let r := PubkyLockResource.of creator (LockId.fromHash (.replicate 7))
    PubkyLockResource.fromStr Codec.base32 r.display = .ok r ∧
      r.display = sqlLockResource creator r.lockId := by
  intro creator r
  have hpubky : ∀ value key, Codec.base32.parsePubky value = some key →
      Codec.base32.parsePubky key = some key ∧ '/' ∉ key.toList := by
    intro value key h
    obtain ⟨hz, hkey⟩ := Option.ite_none_right_eq_some.1 h
    cases hkey
    refine ⟨if_pos hz, fun hslash => ?_⟩
    rw [Bool.and_eq_true, List.all_eq_true] at hz
    exact absurd (hz.2 _ hslash) (by decide)
  have hcreator : Codec.base32.parsePubky creator.text = some creator.text :=
    if_pos (by decide +kernel)
  have hvalid : CreatorPubky.fromStr Codec.base32 creator.text = .ok creator := by
    rw [CreatorPubky.fromStr, hcreator]
    rfl
  have h := lock_resources_canonical Codec.base32 Codec.base32_decode hpubky
  exact ⟨h.1 _ _ ⟨_, hvalid⟩ (.inr ⟨_, rfl⟩), h.2.2.2.1 _ _⟩

end PubkyLocks
