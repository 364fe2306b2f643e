/-!
Words of the text format, each with the line it starts on. Blanks and comments stand between words
and are dropped. A comment runs to the end of its line and may hold no carriage return but the one
before the newline. The first thing that is no word ends the text.
-/

namespace RouteProgramming.TextFormat

inductive LiteralFault where
  | unterminated | badEscape
deriving DecidableEq, Repr

inductive Token where
  /-- A field name, a number or a bare word. -/
  | name (text : String)
  | literal (text : String)
  | colon
  | opening
  | closing
  /-- A literal that does not end, or that holds an unknown escape. -/
  | broken (fault : LiteralFault)
  /-- A character that starts no word. -/
  | stray
deriving DecidableEq, Repr

structure Lexeme where
  token : Token
  line : Nat
deriving DecidableEq, Repr

namespace Lexeme

def isNameChar (c : Char) : Bool := c.isAlphanum || c == '_' || c == '.' || c == '-' || c == '+'

def isBlank (c : Char) : Bool := c == ' ' || c == '\t' || c == '\r' || c == '\n'

/-- The character that an escape letter stands for. -/
def escaped? : Char → Option Char
  | 'n' => some '\n'
  | 't' => some '\t'
  | '\\' => some '\\'
  | '"' => some '"'
  | '\'' => some '\''
  | _ => none

/-- What is being read. The characters read so far are kept in reverse. -/
inductive Mode where
  | between
  | comment
  | name (done : List Char)
  | literal (quote : Char) (done : List Char)
  | escape (quote : Char) (done : List Char)
deriving DecidableEq, Repr

/-- The words of a text that starts on `line` in the midst of `mode`, and the line at its end. -/
def scan (line : Nat) : Mode → List Char → List Lexeme × Nat
  | .between, [] | .comment, [] => ([], line)
  | .name done, [] => ([⟨.name (String.ofList done.reverse), line⟩], line)
  | .literal _ _, [] => ([⟨.broken .unterminated, line⟩], line)
  | .escape _ _, [] => ([⟨.broken .badEscape, line⟩], line)
  | .between, c :: cs => start line c (scan · · cs)
  | .comment, c :: cs =>
    if c = '\n' then scan (line + 1) .between cs
    else if c = '\r' ∧ cs.head? ≠ some '\n' then ([⟨.stray, line⟩], line)
    else scan line .comment cs
  | .name done, c :: cs =>
    if isNameChar c then scan line (.name (c :: done)) cs
    else
      let (rest, last) := start line c (scan · · cs)
      (⟨.name (String.ofList done.reverse), line⟩ :: rest, last)
  | .literal quote done, c :: cs =>
    if c = quote then
      let (rest, last) := scan line .between cs
      (⟨.literal (String.ofList done.reverse), line⟩ :: rest, last)
    else if c = '\n' then ([⟨.broken .unterminated, line⟩], line)
    else if c = '\\' then scan line (.escape quote done) cs
    else scan line (.literal quote (c :: done)) cs
  | .escape quote done, c :: cs =>
    match escaped? c with
    | some e => scan line (.literal quote (e :: done)) cs
    | none => ([⟨.broken .badEscape, line⟩], line)
where
  /-- Goes on from the first character after a blank or a word. -/
  start (line : Nat) (c : Char) (go : Nat → Mode → List Lexeme × Nat) : List Lexeme × Nat :=
    let word (t : Token) : List Lexeme × Nat :=
      let (rest, last) := go line .between
      (⟨t, line⟩ :: rest, last)
    if c = '\n' then go (line + 1) .between
    else if isBlank c then go line .between
    else if isNameChar c then go line (.name [c])
    else
      match c with
      | '#' => go line .comment
      | '"' => go line (.literal '"' [])
      | '\'' => go line (.literal '\'' [])
      | ':' => word .colon
      | '\x7b' | '<' => word .opening
      | '\x7d' | '>' => word .closing
      | _ => ([⟨.stray, line⟩], line)

/-- The words of a text and its last line; the first line is 1. -/
def ofChars (cs : List Char) : List Lexeme × Nat := scan 1 .between cs

end Lexeme

end RouteProgramming.TextFormat
