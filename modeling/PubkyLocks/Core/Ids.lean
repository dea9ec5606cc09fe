/-
  Identifiers (`locks-core/src/ids.rs`): Pubky identities, lock, bundle and
  task ids, lock resources, and the timestamps of the `time` crate.

  A `LockHash` carries the length of its byte array.  `LockId.fromHash` is the
  Crockford base32 text of the hash; the other identifiers are the canonical
  texts that the parsers of the source return.
-/
import Mathlib.Data.String.Basic

namespace PubkyLocks

/-- A creator (or reader) identity: the printed form of a `pubky::PublicKey`. -/
structure CreatorPubky where
  text : String
deriving DecidableEq, Repr

structure LockServerPubky where
  text : String
deriving DecidableEq, Repr

/-- A lock id: the Crockford base32 text of a content-lock hash. -/
structure LockId where
  text : String
deriving DecidableEq, Repr

structure BundleId where
  text : String
deriving DecidableEq, Repr

/-- An opaque correlation value chosen by the viewer's client. -/
structure ClientReference where
  text : String
deriving DecidableEq, Repr

/-- A UUID, as the number of its 128 bits. -/
structure Uuid where
  bits : ℕ
deriving DecidableEq, Repr

structure TaskId where
  uuid : Uuid
deriving DecidableEq, Repr

structure LockHash where
  bytes : List UInt8
  size : bytes.length = 32
deriving DecidableEq

structure GuardedResourceHash where
  bytes : List UInt8
  size : bytes.length = 32
deriving DecidableEq

/-- A hash of 32 equal bytes. -/
def LockHash.replicate (b : UInt8) : LockHash := ⟨List.replicate 32 b, List.length_replicate⟩

def GuardedResourceHash.replicate (b : UInt8) : GuardedResourceHash :=
  ⟨List.replicate 32 b, List.length_replicate⟩

/-! ## Crockford base32 -/

/-- The digit of a value below 32 in the Crockford alphabet. -/
def crockfordDigit (n : ℕ) : Char :=
  ("0123456789ABCDEFGHJKMNPQRSTVWXYZ".toList[n]?).getD '0'

def byteBits (b : UInt8) : List Bool :=
  [7, 6, 5, 4, 3, 2, 1, 0].map fun i => b.toNat.testBit i

def bitsValue (bs : List Bool) : ℕ :=
  bs.foldl (fun n b => 2 * n + b.toNat) 0

/-- One digit for every five bits; a last shorter group is padded with zeros. -/
def crockfordDigits : List Bool → List Char
  | [] => []
  | b₁ :: b₂ :: b₃ :: b₄ :: b₅ :: bs =>
    crockfordDigit (bitsValue [b₁, b₂, b₃, b₄, b₅]) :: crockfordDigits bs
  | bs => [crockfordDigit (bitsValue (bs ++ List.replicate (5 - bs.length) false))]

/-- `base32::encode` with `Alphabet::Crockford`, by the documentation of the crate: the
    bits in their order, in uppercase digits and without padding characters. -/
def crockfordEncode (bytes : List UInt8) : String :=
  String.ofList (crockfordDigits (bytes.flatMap byteBits))

def LockId.fromHash (h : LockHash) : LockId := ⟨crockfordEncode h.bytes⟩

/-! ## Lock resources -/

/-- The canonical path `/pub/app.locks/<lock_id>.json` of a content lock. -/
structure ContentLockPath where
  lockId : LockId
deriving DecidableEq, Repr

def ContentLockPath.display (p : ContentLockPath) : String :=
  "/pub/app.locks/" ++ p.lockId.text ++ ".json"

/-- A content lock of a creator, `<creator>/pub/app.locks/<lock_id>.json`. -/
structure PubkyLockResource where
  creator : CreatorPubky
  contentLockPath : ContentLockPath
deriving DecidableEq, Repr

def PubkyLockResource.lockId (r : PubkyLockResource) : LockId := r.contentLockPath.lockId

/-- The lock resource of a creator and a lock id, as SQL concatenates it from
    the two columns. -/
def PubkyLockResource.of (creator : CreatorPubky) (lockId : LockId) : PubkyLockResource :=
  ⟨creator, ⟨lockId⟩⟩

@[simp] theorem PubkyLockResource.of_creator (c : CreatorPubky) (l : LockId) :
    (PubkyLockResource.of c l).creator = c := rfl

@[simp] theorem PubkyLockResource.of_lockId (c : CreatorPubky) (l : LockId) :
    (PubkyLockResource.of c l).lockId = l := rfl

theorem PubkyLockResource.eq_of (r : PubkyLockResource) :
    r = PubkyLockResource.of r.creator r.lockId := rfl

/-! ## Time -/

/-- `time::OffsetDateTime`, in nanoseconds since the Unix epoch. -/
abbrev Timestamp := ℤ

/-- `time::Duration`, in nanoseconds. -/
abbrev Duration := ℤ

def Duration.seconds (n : ℤ) : Duration := n * 1000000000

def Duration.wholeSeconds (d : Duration) : ℤ := d.tdiv 1000000000

theorem Duration.nonneg_of_wholeSeconds {d : ℤ} (h : 0 < Duration.wholeSeconds d) : 0 ≤ d := by
  by_contra hlt
  have hneg : 0 ≤ -d := by omega
  have hdiv : 0 ≤ (-d).tdiv 1000000000 := Int.tdiv_nonneg hneg (by decide)
  rw [Int.neg_tdiv] at hdiv
  have hpos : 0 < d.tdiv 1000000000 := h
  omega

/-- `nanosecond().is_multiple_of(1_000)`. -/
def Timestamp.isMicrosecond (t : Timestamp) : Bool := t % 1000 == 0

/-- The largest `OffsetDateTime`, `9999-12-31T23:59:59.999999999Z`. -/
def Timestamp.max : Timestamp := 253402300799999999999

/-- `OffsetDateTime::checked_add` of a non-negative duration. -/
def Timestamp.checkedAdd (t : Timestamp) (d : Duration) : Option Timestamp :=
  if t + d ≤ Timestamp.max then some (t + d) else none

end PubkyLocks
