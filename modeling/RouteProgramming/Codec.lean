import RouteProgramming.Json

/-!
Reading values from JSON and writing them. A record is an object, in which unknown fields are
ignored, or an array of all its fields in order; a choice is its name or an object with that one
field. Numbers must be integers in range.
-/

namespace RouteProgramming

/-- Types that are written as JSON and read back. -/
class Codec (α : Type) where
  encode : α → Json
  decode? : Json → Option α

export Codec (encode decode?)

namespace Json

/-- The values of the named fields of a record, in the order of the names. -/
def record? (names : List String) : Json → Option (List (Option Json))
  | .obj fs => some (names.map (List.lookup · fs))
  | .arr xs => if xs.length = names.length then some (xs.map some) else none
  | _ => none

/-- As `record?`, for a record whose fields all have defaults: an array may end early. -/
def partialRecord? (names : List String) : Json → Option (List (Option Json))
  | .obj fs => some (names.map (List.lookup · fs))
  | .arr xs =>
    if xs.length ≤ names.length then some (xs.map some ++ List.replicate (names.length - xs.length) none)
    else none
  | _ => none

/-- The name of a choice that carries no value. -/
def name? : Json → Option String
  | .str s => some s
  | .obj [(s, .null)] => some s
  | _ => none

/-- Reads a choice without values from a list of names. -/
def choice? {α : Type} (choices : List (String × α)) (j : Json) : Option α :=
  j.name?.bind (List.lookup · choices)

/-- The name and value of a choice that carries one. -/
def variant? : Json → Option (String × Json)
  | .obj [(s, j)] => some (s, j)
  | _ => none

/-- A natural number below `bound`. -/
def natBelow? (bound : Nat) : Json → Option Nat
  | .int (.ofNat n) => if n < bound then some n else none
  | _ => none

end Json

namespace Codec

variable {α : Type} [Codec α]

/-- A field that must be there. -/
def required (field : Option Json) : Option α := field.bind decode?

/-- A field that may be missing. -/
def nullable (field : Option Json) : Option (Option α) :=
  match field with
  | none | some .null => some none
  | some j => (decode? j).map some

def withDefault (fallback : α) (field : Option Json) : Option α :=
  match field with
  | none => some fallback
  | some j => decode? j

instance : Codec Json := ⟨id, some⟩

instance : Codec Bool where
  encode := .bool
  decode?
    | .bool b => some b
    | _ => none

instance : Codec String where
  encode := .str
  decode?
    | .str s => some s
    | _ => none

instance : Codec UInt64 where
  encode n := .int n.toNat
  decode? j := (j.natBelow? 18446744073709551616).map UInt64.ofNat

instance : Codec UInt32 where
  encode n := .int n.toNat
  decode? j := (j.natBelow? 4294967296).map UInt32.ofNat

instance : Codec UInt8 where
  encode n := .int n.toNat
  decode? j := (j.natBelow? 256).map UInt8.ofNat

instance : Codec Int64 where
  encode n := .int n.toInt
  decode?
    | .int n => if -9223372036854775808 ≤ n ∧ n < 9223372036854775808 then some (Int64.ofInt n) else none
    | _ => none

instance : Codec (Option α) where
  encode
    | none => .null
    | some a => encode a
  decode?
    | .null => some none
    | j => (decode? j).map some

instance : Codec (List α) where
  encode xs := .arr (xs.map encode)
  decode?
    | .arr xs => xs.mapM decode?
    | _ => none

end Codec

end RouteProgramming
