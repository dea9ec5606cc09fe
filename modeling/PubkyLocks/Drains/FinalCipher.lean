/-
  The cipher that stores final credentials (`infrastructure/final_credentials.rs`).
-/
import PubkyLocks.Core.Ids
import PubkyLocks.Lib.Percent
import Mathlib.Algebra.Ring.Nat

namespace PubkyLocks

structure FinalCredentialContext where
  deletionJobId : Uuid
  creator : CreatorPubky
  bundleId : BundleId
deriving DecidableEq

/-- The crates below the cipher: base64 and the AEAD. -/
structure CipherExternals where
  encode : List UInt8 → List Char
  decode : List Char → Option (List UInt8)
  sealed (key nonce aad message : List UInt8) : Option (List UInt8)
  opened (key nonce aad ciphertext : List UInt8) : Option (List UInt8)

/-- What they promise for one message: base64 is read back and has no colon, and the
    AEAD opens what it has sealed under the same associated data. -/
structure CipherExternals.Opens (X : CipherExternals) (key nonce message : List UInt8) : Prop where
  decode_nonce : X.decode (X.encode nonce) = some nonce
  not_mem_nonce : ':' ∉ X.encode nonce
  decode_sealed : ∀ {aad ciphertext}, X.sealed key nonce aad message = some ciphertext →
    X.decode (X.encode ciphertext) = some ciphertext
  opened_sealed : ∀ {aad ciphertext}, X.sealed key nonce aad message = some ciphertext →
    X.opened key nonce aad ciphertext = some message

namespace FinalCredentialCipher

variable (X : CipherExternals) (key nonce : List UInt8) (c : FinalCredentialContext)

def envelopePrefix : List Char := "v1.xchacha20poly1305:".toList

/-- The last bytes of a number, the highest one first. -/
def toBeBytes : ℕ → ℕ → List UInt8
  | 0, _ => []
  | n + 1, k => toBeBytes n (k / 256) ++ [UInt8.ofNat k]

/-- What `append_field` writes: the length as a `u32`, and the field. -/
def framed (field : List UInt8) : List UInt8 := toBeBytes 4 field.length ++ field

/-- The `expect` of `append_field` refuses a field whose length is not a `u32`. -/
def associatedData : Option (List UInt8) :=
  let fields := [Percent.bytes "pubky-locks-final-credential-aad".toList, [1],
    toBeBytes 16 c.deletionJobId.bits, Percent.bytes c.creator.text.toList,
    Percent.bytes c.bundleId.text.toList]
  if fields.all (·.length < 256 ^ 4) then some (fields.flatMap framed) else none

/-- `encrypt`, with the nonce it draws. -/
def encrypt (credential : String) : Option (List Char) := do
  let ciphertext ← X.sealed key nonce (← associatedData c) (Percent.bytes credential.toList)
  some (envelopePrefix ++ (X.encode nonce ++ ':' :: X.encode ciphertext))

def decrypt (envelope : List Char) : Option String := do
  let rest ← envelope.dropPrefix? envelopePrefix
  match rest.dropWhile (· ≠ ':') with
  | [] => none
  | _ :: ciphertext =>
    let nonce ← (X.decode (rest.takeWhile (· ≠ ':'))).filter (·.length = 24)
    let ciphertext ← X.decode ciphertext
    Percent.text? (← X.opened key nonce (← associatedData c) ciphertext)

variable {X key nonce c} {c' : FinalCredentialContext}

@[simp] theorem length_toBeBytes (n k : ℕ) : (toBeBytes n k).length = n := by
  induction n generalizing k with
  | zero => rfl
  | succ n ih => simp [toBeBytes, ih]

theorem toBeBytes_inj {n k l : ℕ} (hk : k < 256 ^ n) (hl : l < 256 ^ n)
    (h : toBeBytes n k = toBeBytes n l) : k = l := by
  induction n generalizing k l with
  | zero =>
    rw [pow_zero] at hk hl
    omega
  | succ n ih =>
    obtain ⟨hhigh, hlow⟩ := List.append_inj h (by simp)
    rw [pow_succ'] at hk hl
    have hdiv := ih (Nat.div_lt_of_lt_mul hk) (Nat.div_lt_of_lt_mul hl) hhigh
    have hmod : k % 256 = l % 256 := by simpa [← UInt8.toNat_inj] using hlow
    omega

theorem flatMap_framed_inj {fields fields' : List (List UInt8)}
    (h : fields.flatMap framed = fields'.flatMap framed)
    (hf : ∀ f ∈ fields, f.length < 256 ^ 4) (hf' : ∀ f ∈ fields', f.length < 256 ^ 4) :
    fields = fields' := by
  induction fields generalizing fields' with
  | nil =>
    cases fields' with
    | nil => rfl
    | cons g gs => simp [framed, toBeBytes] at h
  | cons f fs ih =>
    cases fields' with
    | nil => simp [framed, toBeBytes] at h
    | cons g gs =>
      rw [List.forall_mem_cons] at hf hf'
      simp only [List.flatMap_cons, framed, List.append_assoc] at h
      obtain ⟨hframe, h⟩ := List.append_inj h (by simp)
      obtain ⟨rfl, htail⟩ := List.append_inj h (toBeBytes_inj hf.1 hf'.1 hframe)
      rw [ih htail hf.2 hf'.2]

theorem bytes_toList_inj {s t : String} (h : Percent.bytes s.toList = Percent.bytes t.toList) :
    s = t := by
  simpa [Percent.text?_bytes] using congrArg Percent.text? h

/-- **The associated data** names the context. -/
theorem associatedData_inj {bs : List UInt8} (hc : c.deletionJobId.bits < 256 ^ 16)
    (hc' : c'.deletionJobId.bits < 256 ^ 16) (h : associatedData c = some bs)
    (h' : associatedData c' = some bs) : c' = c := by
  simp only [associatedData, Option.ite_none_right_eq_some, Option.some.injEq, List.all_eq_true,
    decide_eq_true_eq] at h h'
  have hfields := flatMap_framed_inj (h'.2.trans h.2.symm) h'.1 h.1
  simp only [List.cons.injEq, true_and, and_true] at hfields
  obtain ⟨hj, ha, hb⟩ := hfields
  obtain ⟨⟨j⟩, ⟨a⟩, ⟨b⟩⟩ := c
  obtain ⟨⟨j'⟩, ⟨a'⟩, ⟨b'⟩⟩ := c'
  cases toBeBytes_inj hc' hc hj
  cases bytes_toList_inj ha
  cases bytes_toList_inj hb
  rfl

/-- **A stored final credential opens under its job, creator and bundle**, and no
    other context has the associated data it is sealed with. -/
theorem decrypt_encrypt {credential : String} {envelope : List Char} (hnonce : nonce.length = 24)
    (hX : X.Opens key nonce (Percent.bytes credential.toList))
    (hc : c.deletionJobId.bits < 256 ^ 16)
    (h : encrypt X key nonce c credential = some envelope) :
    decrypt X key c envelope = some credential ∧
      ∀ c' : FinalCredentialContext, c'.deletionJobId.bits < 256 ^ 16 →
        associatedData c' = associatedData c → c' = c := by
  simp only [encrypt, Option.bind_eq_bind, Option.bind_eq_some_iff, Option.some.injEq] at h
  obtain ⟨aad, haad, ciphertext, hseal, rfl⟩ := h
  have hpos : ∀ a ∈ X.encode nonce, decide (a ≠ ':') :=
    fun a ha => decide_eq_true fun hcolon => hX.not_mem_nonce (hcolon ▸ ha)
  refine ⟨?_, fun c' hc' hsame => associatedData_inj hc hc' haad (hsame.trans haad)⟩
  simp only [decrypt, List.dropPrefix?_eq_some_iff.2 ⟨_, rfl, beq_self_eq_true _⟩,
    Option.bind_eq_bind, Option.bind_some, List.takeWhile_append_of_pos hpos,
    List.dropWhile_append_of_pos hpos]
  simp [haad, Option.filter, hnonce, hX.decode_nonce, hX.decode_sealed hseal,
    hX.opened_sealed hseal, Percent.text?_bytes]

def sealedContext : FinalCredentialContext :=
  ⟨⟨9⟩, ⟨"o1gg96ewuojmopcjbz8895478wdtxtzzuxnfjjz8o8e77csa1ngo"⟩, ⟨"000G40R40M30E209185GR38E1V"⟩⟩

/-- XChaCha20-Poly1305 and base64 at the credential `secret-final-bearer`, in that
    context and under the key of 32 bytes 7 and the nonce of the bytes 0 to 23. -/
def sealsOne : CipherExternals :=
  let key := List.replicate 32 7
  let nonce := (List.range 24).map UInt8.ofNat
  let message := Percent.bytes "secret-final-bearer".toList
  let ciphertext := [219, 114, 200, 247, 159, 104, 118, 195, 76, 169, 224, 43, 203, 128, 202, 205,
    45, 179, 74, 219, 81, 156, 144, 253, 184, 36, 245, 125, 93, 162, 172, 179, 106, 70, 190]
  let texts := [(nonce, "AAECAwQFBgcICQoLDA0ODxAREhMUFRYX".toList),
    (ciphertext, "23LI959odsNMqeAry4DKzS2zSttRnJD9uCT1fV2irLNqRr4".toList)]
  { encode := fun bs => (texts.lookup bs).getD []
    decode := fun text => (texts.find? (·.2 = text)).map (·.1)
    sealed := fun k n a m =>
      if (k, n, some a, m) = (key, nonce, associatedData sealedContext, message) then
        some ciphertext
      else none
    opened := fun k n a bs =>
      if (k, n, some a, bs) = (key, nonce, associatedData sealedContext, ciphertext) then
        some message
      else none }

theorem sealed_once : let key := List.replicate 32 7
    ∃ envelope, encrypt sealsOne key ((List.range 24).map UInt8.ofNat) sealedContext
        "secret-final-bearer" = some envelope ∧
      decrypt sealsOne key sealedContext envelope = some "secret-final-bearer" ∧
      ∀ c', c'.deletionJobId.bits < 256 ^ 16 →
        associatedData c' = associatedData sealedContext → c' = sealedContext := by
  intro key
  have h : (encrypt sealsOne key ((List.range 24).map UInt8.ofNat) sealedContext
      "secret-final-bearer").isSome := by decide +kernel
  have hX : sealsOne.Opens key ((List.range 24).map UInt8.ofNat)
      (Percent.bytes "secret-final-bearer".toList) := by
    refine ⟨by decide +kernel, by decide +kernel, fun hs => ?_, fun hs => ?_⟩
    · simp only [sealsOne, Option.ite_none_right_eq_some] at hs
      obtain ⟨-, ⟨⟩⟩ := hs
      decide +kernel
    · simp only [sealsOne, Option.ite_none_right_eq_some, Prod.mk.injEq] at hs ⊢
      obtain ⟨⟨-, -, haad, -⟩, ⟨⟩⟩ := hs
      exact ⟨⟨rfl, trivial, haad, rfl⟩, trivial⟩
  exact ⟨_, (Option.some_get h).symm,
    decrypt_encrypt rfl hX (by decide) (Option.some_get h).symm⟩

end FinalCredentialCipher

end PubkyLocks
