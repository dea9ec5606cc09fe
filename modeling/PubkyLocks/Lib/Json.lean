/-
  JSON values, as `serde_json::Value`: decidable equality and access to the
  fields of objects.
-/
import Mathlib.Data.String.Basic
import Mathlib.Algebra.Ring.Int.Defs

/-- A JSON value.  A number is an integer, or (`real`) any other number, by
    its text. -/
inductive Json where
  | null
  | bool (b : Bool)
  | int (n : ℤ)
  | real (text : String)
  | str (s : String)
  | arr (vs : List Json)
  | obj (fs : List (String × Json))
deriving Repr

namespace Json

mutual

def decEq : (a b : Json) → Decidable (a = b)
  | null, null => isTrue rfl
  | bool b, bool b' => decidable_of_iff (b = b') (by simp)
  | int n, int n' => decidable_of_iff (n = n') (by simp)
  | real t, real t' => decidable_of_iff (t = t') (by simp)
  | str s, str s' => decidable_of_iff (s = s') (by simp)
  | arr vs, arr vs' => match decEqList vs vs' with
    | isTrue h => isTrue (by rw [h])
    | isFalse h => isFalse (by simpa using h)
  | obj fs, obj fs' => match decEqFields fs fs' with
    | isTrue h => isTrue (by rw [h])
    | isFalse h => isFalse (by simpa using h)
  | null, bool _ | null, int _ | null, real _ | null, str _ | null, arr _ | null, obj _
  | bool _, null | bool _, int _ | bool _, real _ | bool _, str _ | bool _, arr _ | bool _, obj _
  | int _, null | int _, bool _ | int _, real _ | int _, str _ | int _, arr _ | int _, obj _
  | real _, null | real _, bool _ | real _, int _ | real _, str _ | real _, arr _ | real _, obj _
  | str _, null | str _, bool _ | str _, int _ | str _, real _ | str _, arr _ | str _, obj _
  | arr _, null | arr _, bool _ | arr _, int _ | arr _, real _ | arr _, str _ | arr _, obj _
  | obj _, null | obj _, bool _ | obj _, int _ | obj _, real _ | obj _, str _ | obj _, arr _ =>
    isFalse (by simp)

def decEqList : (a b : List Json) → Decidable (a = b)
  | [], [] => isTrue rfl
  | [], _ :: _ => isFalse (by simp)
  | _ :: _, [] => isFalse (by simp)
  | v :: vs, w :: ws => match decEq v w, decEqList vs ws with
    | isTrue h, isTrue h' => isTrue (by rw [h, h'])
    | isFalse h, _ => isFalse (by simp [h])
    | _, isFalse h => isFalse (by simp [h])

/-- Equality of the fields of objects. -/
def decEqFields : (a b : List (String × Json)) → Decidable (a = b)
  | [], [] => isTrue rfl
  | [], _ :: _ => isFalse (by simp)
  | _ :: _, [] => isFalse (by simp)
  | (k, v) :: fs, (k', v') :: fs' =>
    match (inferInstance : Decidable (k = k')), decEq v v', decEqFields fs fs' with
    | isTrue h, isTrue h', isTrue h'' => isTrue (by rw [h, h', h''])
    | isFalse h, _, _ => isFalse (by simp [h])
    | _, isFalse h, _ => isFalse (by simp [h])
    | _, _, isFalse h => isFalse (by simp [h])

end

instance : DecidableEq Json := decEq

/-- `Value::get` on an object: the value of a field. -/
def field? (name : String) : Json → Option Json
  | obj fs => (fs.find? fun f => f.1 = name).map Prod.snd
  | _ => none

def asStr? : Json → Option String
  | str s => some s
  | _ => none

/-- `Value::as_u64`. -/
def asU64? : Json → Option ℕ
  | int n => if 0 ≤ n ∧ n < 2 ^ 64 then some n.toNat else none
  | _ => none

def asObject? : Json → Option (List (String × Json))
  | obj fs => some fs
  | _ => none

end Json
