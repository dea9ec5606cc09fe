/-
  Decoders of JSON values into records, in the manner of derived serde
  decoders: a record is read from an object, by the names of its fields, or from
  an array, by their order; unknown fields are refused.
-/
import PubkyLocks.Lib.Json

namespace Decode

universe u
variable {α : Type u}

/-- A text. -/
def string : Json → Option String
  | .str s => some s
  | _ => none

/-- An unsigned integer below the bound. -/
def uint (bound : ℕ) : Json → Option ℕ
  | .int n => if 0 ≤ n ∧ n < bound then some n.toNat else none
  | _ => none

def parsed (parse : String → Option α) (j : Json) : Option α := (string j).bind parse

def list (element : Json → Option α) : Json → Option (List α)
  | .arr vs => vs.mapM element
  | _ => none

def nullable (value : Json → Option α) : Json → Option (Option α)
  | .null => some none
  | j => (value j).map some

def entries (value : Json → Option α) : Json → Option (List (String × α))
  | .obj fs => fs.mapM fun f => (value f.2).map (f.1, ·)
  | _ => none

/-- A variant without fields, by its name. -/
def variant (table : List (String × α)) : Json → Option α
  | .str s => table.lookup s
  | .obj [(s, .null)] => table.lookup s
  | _ => none

/-- The tag of an internally tagged variant, and the value without the tag. -/
def tagged (tag : String) : Json → Option (String × Json)
  | .obj fs => match fs.find? (fun f => f.1 = tag) with
    | some (_, .str s) => some (s, .obj (fs.filter fun f => f.1 ≠ tag))
    | _ => none
  | .arr (.str s :: vs) => some (s, .arr vs)
  | _ => none

/-! ## Records -/

/-- The value is an object with known fields only, or an array of all fields. -/
def closed (names : List String) : Json → Bool
  | .obj fs => fs.all fun f => names.contains f.1
  | .arr vs => vs.length == names.length
  | _ => false

/-- The value is an object — with known fields only, if `deny` is set — or an
    array of the fields, of which the last `tail` may be missing. -/
def shaped (deny : Bool) (names : List String) (tail : ℕ) : Json → Bool
  | .obj fs => !deny || fs.all fun f => names.contains f.1
  | .arr vs => names.length ≤ vs.length + tail && vs.length ≤ names.length
  | _ => false

/-- The value of a field. -/
def slot (names : List String) (name : String) : Json → Option Json
  | .obj fs => (fs.find? fun f => f.1 = name).map Prod.snd
  | .arr vs => vs[names.idxOf name]?
  | _ => none

/-- A field that has to be there. -/
def required (value : Json → Option α) (s : Option Json) : Option α := s.bind value

def defaulted (value : Json → Option α) (default : α) : Option Json → Option α
  | none => some default
  | some j => value j

/-- A field of type `Option<T>`, absent or null if there is no value. -/
def optional (value : Json → Option α) : Option Json → Option (Option α) :=
  defaulted (nullable value) none

end Decode
