import RouteProgramming.Text.Quoted

/-!
Paths that name a node of the management tree, such as `/interfaces/interface[name=eth0]/config`.
A segment is an element name, with an optional module name and a colon before it and key predicates
in brackets after it. A path without its predicates is a schema path, and one path covers another
when its schema path is an ancestor of the other's or the same.
-/

namespace RouteProgramming.SchemaPath

inductive PathFault where
  | notAbsolute
  | noElement
  | emptySegment
  | malformedSegment (segment : String)
deriving DecidableEq, Repr

namespace PathFault

def message : PathFault → String
  | .notAbsolute => "must start with '/'"
  | .noElement => "must name at least one element"
  | .emptySegment => "empty segment"
  | .malformedSegment segment => s!"malformed segment {Text.Quoted.quote segment}"

end PathFault

/-! ### Segments -/

def isNameStart (c : Char) : Bool := c.isAlpha || c == '_'

def isNameChar (c : Char) : Bool := c.isAlphanum || c == '_' || c == '.' || c == '-'

/-- What has been read last in a segment. -/
inductive Place where
  | start
  /-- A name that a following colon would make the module's. -/
  | name
  | colon
  | element
  | bracket
  | key
  | value
  | closed
deriving DecidableEq, Repr

namespace Place

/-- The place after one more character, if it may stand there. -/
def next (c : Char) : Place → Option Place
  | .start => if isNameStart c then some .name else none
  | .name => if isNameChar c then some .name else if c = ':' then some .colon else
    if c = '[' then some .bracket else none
  | .colon => if isNameStart c then some .element else none
  | .element => if isNameChar c then some .element else if c = '[' then some .bracket else none
  | .bracket => if isNameStart c then some .key else none
  | .key => if isNameChar c then some .key else if c = '=' then some .value else none
  | .value => if c = ']' then some .closed else some .value
  | .closed => if c = '[' then some .bracket else none

/-- Whether a segment may end here. -/
def isEnd : Place → Bool
  | .name | .element | .closed => true
  | _ => false

end Place

def isSegment (cs : List Char) : Bool := (cs.foldlM (fun p c => Place.next c p) Place.start).any Place.isEnd

/-- Number of open brackets after one more character. A closing bracket too many does not count. -/
def nesting (depth : Nat) (c : Char) : Nat :=
  if c = '[' then depth + 1 else if c = ']' then depth - 1 else depth

/-- Splits at the slashes outside brackets. -/
def segments : (depth : Nat) → List Char → List (List Char)
  | _, [] => [[]]
  | depth, c :: cs =>
    let rest := segments (nesting depth c) cs
    if c = '/' ∧ depth = 0 then [] :: rest
    else
      match rest with
      | [] => [[c]]
      | s :: ss => (c :: s) :: ss

/-! ### Paths -/

def checkSegments : List (List Char) → Except PathFault Unit
  | [] => .ok ()
  | [] :: _ => .error .emptySegment
  | s :: ss => if isSegment s then checkSegments ss else .error (.malformedSegment (String.ofList s))

/-- A path is absolute and has at least one segment; the first bad segment is reported. -/
def checkChars : List Char → Except PathFault Unit
  | '/' :: [] => .error .noElement
  | '/' :: cs => checkSegments (segments 0 cs)
  | _ => .error .notAbsolute

def check (path : String) : Except PathFault Unit := checkChars path.toList

/-! ### Coverage -/

/-- The characters outside brackets, the brackets left out too. -/
def outside : (depth : Nat) → List Char → List Char
  | _, [] => []
  | depth, c :: cs =>
    let rest := outside (nesting depth c) cs
    if c ≠ '[' ∧ c ≠ ']' ∧ depth = 0 then c :: rest else rest

def schema (path : String) : String := String.ofList (outside 0 path.toList)

def trimSlashes (cs : List Char) : List Char := (cs.reverse.dropWhile (· == '/')).reverse

/-- Whether `path` is `ancestor` or starts with it and a slash. -/
def isWithin (ancestor path : List Char) : Bool :=
  ancestor.isPrefixOf path && (path.drop ancestor.length).head?.all (· == '/')

/-- Whether `supported` names `path` or one of its ancestors. -/
def covers (supported path : String) : Bool :=
  isWithin (trimSlashes (outside 0 supported.toList)) (outside 0 path.toList)

end RouteProgramming.SchemaPath
