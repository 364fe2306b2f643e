/-!
Values of a TOML document. Tables come about in four ways, which decide who may still add to them:
under a header of their own, on the way to a deeper header, through a dotted key, or between braces.
-/

namespace RouteProgramming.Toml

inductive TableKind where
  | header | implied | dotted | inline
deriving DecidableEq, Repr

inductive Value where
  | string (s : String)
  | integer (n : Int)
  | boolean (b : Bool)
  /-- A number with a fraction or an exponent, or one that is none; its value is not kept. -/
  | float
  /-- A well-formed number that is too large to keep. -/
  | outOfRange
  /-- A date, a time or both; its parts are not kept. -/
  | datetime
  | array (items : List Value)
  | table (kind : TableKind) (rows : List (String × Value))
  /-- Tables under one repeated header. -/
  | tables (earlier : List Value) (last : List (String × Value))
deriving Inhabited

abbrev Rows := List (String × Value)

namespace Rows

/-- Gives a key a value, in its old place if it has one. -/
def set (key : String) (v : Value) : Rows → Rows
  | [] => [(key, v)]
  | r :: rs => if r.1 = key then (key, v) :: rs else r :: set key v rs

/-- Changes the table at a path. Tables on the way are made if they are missing, as `fresh`, and must
be of a kind that `enter` allows; of tables under a repeated header the last is meant. -/
def alter (fresh : TableKind) (enter : TableKind → Bool) (change : TableKind → Rows → Option Rows) :
    List String → TableKind → Rows → Option Rows
  | [], kind, rows => change kind rows
  | key :: path, _, rows =>
    match rows.lookup key with
    | none => (alter fresh enter change path fresh []).map (fun inner => rows.set key (.table fresh inner))
    | some (.table kind inner) =>
      if enter kind then (alter fresh enter change path kind inner).map (fun inner => rows.set key (.table kind inner))
      else none
    | some (.tables earlier last) =>
      (alter fresh enter change path .header last).map (fun last => rows.set key (.tables earlier last))
    | some _ => none

/-- Adds `path.key = v` below a table. A table with a header takes nothing through a dotted key. -/
def addDotted (path : List String) (key : String) (v : Value) (kind : TableKind) (rows : Rows) : Option Rows :=
  alter .dotted (fun k => k == .implied || k == .dotted)
    (fun kind rows =>
      if (kind == .dotted) == !path.isEmpty ∧ (rows.lookup key).isNone then some (rows ++ [(key, v)]) else none)
    path kind rows

/-- Adds `path.key = v` to the table whose header was last. -/
def addBelow (header path : List String) (key : String) (v : Value) (rows : Rows) : Option Rows :=
  alter .implied (fun _ => true) (addDotted path key v) header .header rows

/-- Opens the table of a header, which may have come about only on the way to deeper headers. -/
def openTable (path : List String) (key : String) (rows : Rows) : Option Rows :=
  alter .implied (· != .inline)
    (fun _ rows =>
      match rows.lookup key with
      | none => some (rows.set key (.table .header []))
      | some (.table .implied inner) => some (rows.set key (.table .header inner))
      | some _ => none)
    path .header rows

/-- Opens one more table of a repeated header. -/
def openNext (path : List String) (key : String) (rows : Rows) : Option Rows :=
  alter .implied (· != .inline)
    (fun _ rows =>
      match rows.lookup key with
      | none => some (rows.set key (.tables [] []))
      | some (.tables earlier last) => some (rows.set key (.tables (earlier ++ [.table .header last]) []))
      | some _ => none)
    path .header rows

end Rows

namespace Value

/-! ### Numbers that fit -/

mutual

/-- Whether every number in a value fits. -/
def fits : Value → Bool
  | .outOfRange => false
  | .array items => allFit items
  | .table _ rows => rowsFit rows
  | .tables earlier last => allFit earlier && rowsFit last
  | .string _ | .integer _ | .boolean _ | .float | .datetime => true

def allFit : List Value → Bool
  | [] => true
  | v :: vs => v.fits && allFit vs

def rowsFit : List (String × Value) → Bool
  | [] => true
  | (_, v) :: rows => v.fits && rowsFit rows

end

/-! ### Records -/

/-- The named fields of a record. Other rows of a table are passed over, but must fit. A list gives the
fields by position, and what follows them is not looked at; a date has none of them. -/
def record? (names : List String) : Value → Option (List (Option Value))
  | .table _ rows =>
    if rowsFit (rows.filter (fun r => !names.contains r.1)) then some (names.map (List.lookup · rows)) else none
  | .array items => some (positional names items)
  | .tables earlier last => some (positional names (earlier ++ [.table .header last]))
  | .datetime => some (names.map (fun _ => none))
  | _ => none
where
  positional (names : List String) (items : List Value) : List (Option Value) :=
    (List.range names.length).map (items[·]?)

end Value

end RouteProgramming.Toml
