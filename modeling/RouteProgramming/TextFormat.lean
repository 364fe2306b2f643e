import RouteProgramming.TextFormat.Lexeme

/-!
Messages in text form: fields `name: value` or `name { fields }`, repeated at will. A value is a
bare word, one or more quoted literals, which are joined, or a nested message in braces or angle
brackets. The reader goes through the words once, with the messages that are still open on a stack.
-/

namespace RouteProgramming.TextFormat

/-- A field of a message and the line its name is on. -/
structure Field (ν : Type) where
  name : String
  value : ν
  line : Nat
deriving Repr

inductive Value where
  | scalar (text : String) (quoted : Bool)
  | message (fields : List (Field Value))

/-- A message is its fields, in order. -/
abbrev Message := List (Field Value)

inductive TextFault where
  | unterminatedString
  | badEscape
  | missingClosing
  | expectedName
  | expectedValue (field : String)
  -- What a part of a reader says that knows no more. A whole message is never refused with one of these.
  | unexpected (part : String)
  | incomplete
deriving DecidableEq, Repr

namespace TextFault

def message : TextFault → String
  | .unterminatedString => "unterminated string"
  | .badEscape => "unsupported escape sequence"
  | .missingClosing => "missing closing brace"
  | .expectedName => "expected field name"
  | .expectedValue field => s!"expected value for field {field}"
  | .unexpected part => s!"unexpected input ({part})"
  | .incomplete => "incomplete input"

def ofLiteral : LiteralFault → TextFault
  | .unterminated => .unterminatedString
  | .badEscape => .badEscape

end TextFault

structure TextError where
  line : Nat
  fault : TextFault
deriving DecidableEq, Repr

/-! ### Reading -/

/-- A message that has been opened: the field whose value it is, and the fields before that one. -/
structure Frame where
  name : String
  line : Nat
  before : Message

inductive Expecting where
  /-- A field name, or the end of the message. -/
  | field
  | value (name : String) (line : Nat) (colon : Bool)
  /-- Another literal to go with those read. -/
  | literal (name : String) (line : Nat) (text : String)

structure Reader where
  frames : List Frame := []
  /-- Fields of the innermost open message. -/
  fields : Message := []
  expecting : Expecting := .field

namespace Reader

def put (r : Reader) (name : String) (line : Nat) (v : Value) : Reader :=
  { r with fields := r.fields ++ [⟨name, v, line⟩], expecting := .field }

/-- Puts the literals read into their field. -/
def settle (r : Reader) : Reader :=
  match r.expecting with
  | .literal name line text => r.put name line (.scalar text true)
  | _ => r

def openMessage (r : Reader) (name : String) (line : Nat) : Reader :=
  { frames := ⟨name, line, r.fields⟩ :: r.frames }

/-- A word where a field name or the end of the message is due. -/
def stepField (r : Reader) (x : Lexeme) : Except TextError Reader :=
  match x.token, r.frames with
  | .name name, _ => .ok { r with expecting := .value name x.line false }
  | .closing, ⟨name, line, before⟩ :: frames =>
    .ok ({ frames, fields := before : Reader }.put name line (.message r.fields))
  | _, _ => .error ⟨x.line, .expectedName⟩

/-- A word where a value is due: without a colon only a message will do. -/
def stepValue (r : Reader) (name : String) (line : Nat) (colon : Bool) (x : Lexeme) : Except TextError Reader :=
  match x.token, colon with
  | .opening, _ => .ok (r.openMessage name line)
  | .colon, false => .ok { r with expecting := .value name line true }
  | .name text, true => .ok (r.put name line (.scalar text false))
  | .literal text, true => .ok { r with expecting := .literal name line text }
  | .broken fault, true => .error ⟨x.line, .ofLiteral fault⟩
  | _, _ => .error ⟨x.line, .expectedValue name⟩

def step (r : Reader) (x : Lexeme) : Except TextError Reader :=
  match r.expecting with
  | .field => r.stepField x
  | .value name line colon => r.stepValue name line colon x
  | .literal name line text =>
    match x.token with
    | .literal more => .ok { r with expecting := .literal name line (text ++ more) }
    | .broken fault => .error ⟨x.line, .ofLiteral fault⟩
    | _ => r.settle.stepField x

def run (r : Reader) (xs : List Lexeme) : Except TextError Reader := xs.foldlM step r

/-- The message read, if none is left open at the end of the text. -/
def finish (r : Reader) (last : Nat) : Except TextError Message :=
  match r.expecting, r.frames with
  | .value name _ _, _ => .error ⟨last, .expectedValue name⟩
  | _, _ :: _ => .error ⟨last, .missingClosing⟩
  | _, [] => .ok r.settle.fields

end Reader

def Message.parse (s : String) : Except TextError Message :=
  let (words, last) := Lexeme.ofChars s.toList
  (({} : Reader).run words).bind (·.finish last)

end RouteProgramming.TextFormat
