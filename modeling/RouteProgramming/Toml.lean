import RouteProgramming.Toml.Scalar

/-!
Reading a TOML document: lines with `key = value` or a header in brackets, values that may hold
further values, and comments. The reader says only whether a document is one, not what is wrong.
-/

namespace RouteProgramming.Toml

open Text

/-! ### Blanks -/

def isSpace (c : Char) : Bool := c == ' ' || c == '\t'

/-- Characters that may stand in comments and strings as they are. -/
def isPlain (c : Char) : Bool := c == '\t' || (0x20 ≤ c.toNat && c.toNat != 0x7f)

def skipSpace (cs : List Char) : List Char := cs.dropWhile isSpace

def newline? : List Char → Option (List Char)
  | '\n' :: cs | '\r' :: '\n' :: cs => some cs
  | _ => none

/-- What follows a line once its content has been read. -/
def endLine? (cs : List Char) : Option (List Char) :=
  let rest :=
    match skipSpace cs with
    | '#' :: cs => cs.dropWhile isPlain
    | cs => cs
  if rest.isEmpty then some [] else newline? rest

/-- Skips spaces, comments and newlines inside brackets. -/
def skipGap : (comment : Bool) → List Char → List Char
  | _, '\n' :: cs | _, '\r' :: '\n' :: cs => skipGap false cs
  | true, c :: cs => if isPlain c then skipGap true cs else c :: cs
  | false, '#' :: cs => skipGap true cs
  | false, c :: cs => if isSpace c then skipGap false cs else c :: cs
  | _, [] => []

/-- Skips spaces and newlines. -/
def skipLines : List Char → List Char
  | '\n' :: cs | '\r' :: '\n' :: cs => skipLines cs
  | c :: cs => if isSpace c then skipLines cs else c :: cs
  | [] => []

/-! ### Strings -/

/-- The character of a code point. -/
def scalar? (n : Nat) : Option Char := if n.isValidChar then some (Char.ofNat n) else none

def hex? (digits : Nat) (cs : List Char) : Option (Char × List Char) := do
  let part := cs.take digits
  if part.length < digits then none
  let n ← Hexadecimal.digits? part
  return (← scalar? n, cs.drop digits)

/-- The character that an escape stands for. -/
def escape? : List Char → Option (Char × List Char)
  | 'b' :: cs => some ('\x08', cs)
  | 't' :: cs => some ('\t', cs)
  | 'n' :: cs => some ('\n', cs)
  | 'f' :: cs => some ('\x0c', cs)
  | 'r' :: cs => some ('\r', cs)
  | 'e' :: cs => some ('\x1b', cs)
  | '"' :: cs => some ('"', cs)
  | '\\' :: cs => some ('\\', cs)
  | 'x' :: cs => hex? 2 cs
  | 'u' :: cs => hex? 4 cs
  | 'U' :: cs => hex? 8 cs
  | _ => none

/-- The rest of a string on one line. `literal` strings know no escapes. -/
def readLine (quote : Char) (literal : Bool) : (fuel : Nat) → List Char → Option (List Char × List Char)
  | 0, _ | _, [] => none
  | fuel + 1, c :: cs =>
    if c = quote then some ([], cs)
    else if c = '\\' ∧ !literal then do
      let (e, cs) ← escape? cs
      let (text, cs) ← readLine quote literal fuel cs
      return (e :: text, cs)
    else if isPlain c then do
      let (text, cs) ← readLine quote literal fuel cs
      return (c :: text, cs)
    else none

/-- The rest of a string on several lines. It ends at three quotes; up to two more belong to it. A
backslash at the end of a line hides all blanks up to the next character. -/
def readLines (quote : Char) (literal : Bool) : (fuel : Nat) → List Char → Option (List Char × List Char)
  | 0, _ | _, [] => none
  | fuel + 1, c :: cs =>
    let more (content rest : List Char) : Option (List Char × List Char) :=
      (readLines quote literal fuel rest).map (fun r => (content ++ r.1, r.2))
    if c = quote then
      let quotes := (cs.takeWhile (· == quote)).length + 1
      if quotes < 3 then more [c] cs
      else some (List.replicate (min quotes 5 - 3) quote, cs.drop (min quotes 5 - 1))
    else if c = '\\' ∧ !literal then
      if (newline? (skipSpace cs)).isSome then more [] (skipLines cs)
      else (escape? cs).bind (fun e => more [e.1] e.2)
    else if isPlain c ∨ c = '\n' then more [c] cs
    else
      match newline? (c :: cs) with
      | some rest => more ['\r', '\n'] rest
      | none => none

/-- A string on one line, from its opening quote on. -/
def string? : List Char → Option (String × List Char)
  | '"' :: cs => (readLine '"' false (cs.length + 1) cs).map (fun r => (String.ofList r.1, r.2))
  | '\'' :: cs => (readLine '\'' true (cs.length + 1) cs).map (fun r => (String.ofList r.1, r.2))
  | _ => none

/-- A string on several lines, from its opening quotes on; a newline right after them is left out. -/
def block? : List Char → Option (String × List Char)
  | '"' :: '"' :: '"' :: cs => body '"' false cs
  | '\'' :: '\'' :: '\'' :: cs => body '\'' true cs
  | _ => none
where
  body (quote : Char) (literal : Bool) (cs : List Char) : Option (String × List Char) :=
    (readLines quote literal (cs.length + 1) ((newline? cs).getD cs)).map (fun r => (String.ofList r.1, r.2))

/-! ### Keys -/

def isBare (c : Char) : Bool := c.isAlphanum || c == '_' || c == '-'

def key? (cs : List Char) : Option (String × List Char) :=
  match string? cs with
  | some r => some r
  | none =>
    let name := cs.takeWhile isBare
    if name.isEmpty then none else some (String.ofList name, cs.drop name.length)

/-- A dotted key of up to `parts` parts: the path to a table and the key in it. -/
def keys? : (parts : Nat) → List Char → Option (List String × String × List Char)
  | 0, _ => none
  | parts + 1, cs => do
    let (key, cs) ← key? (skipSpace cs)
    match skipSpace cs with
    | '.' :: cs => do
      let (path, last, cs) ← keys? parts cs
      return (key :: path, last, cs)
    | cs => return ([], key, cs)

/-- How many parts a key may have, and how deep brackets and braces may nest. -/
def depthLimit : Nat := 80

/-! ### Values -/

def isScalarChar (c : Char) : Bool := c.isAlphanum || c == '+' || c == '-' || c == '_' || c == '.' || c == ':'

/-- A number, date or bare word. A single space may divide a date from a time. -/
def scalarValue? (cs : List Char) : Option (Value × List Char) :=
  let word := cs.takeWhile isScalarChar
  let rest := cs.drop word.length
  match Scalar.date? word, rest with
  | some [], ' ' :: more =>
    if more.head?.any Char.isDigit then
      let time := more.takeWhile isScalarChar
      (Scalar.ofChars? (word ++ ' ' :: time)).map (·, more.drop time.length)
    else some (.datetime, rest)
  | _, _ => (Scalar.ofChars? word).map (·, rest)

mutual

/-- A value in which brackets and braces nest no deeper than `depth`. -/
def value? : (fuel depth : Nat) → List Char → Option (Value × List Char)
  | 0, _, _ => none
  | fuel + 1, depth, cs =>
    match block? cs, string? cs with
    | some (s, cs), _ | none, some (s, cs) => some (.string s, cs)
    | none, none =>
      match depth, cs with
      | _, '"' :: _ | _, '\'' :: _ | 0, '[' :: _ | 0, '\x7b' :: _ => none
      | depth + 1, '[' :: cs => (items? fuel depth (skipGap false cs)).map (fun r => (.array r.1, r.2))
      | depth + 1, '\x7b' :: cs => (members? fuel depth [] (skipGap false cs)).map (fun r => (.table .inline r.1, r.2))
      | _, cs => scalarValue? cs

/-- The items of an array up to its closing bracket. -/
def items? : (fuel depth : Nat) → List Char → Option (List Value × List Char)
  | 0, _, _ => none
  | _, _, ']' :: cs => some ([], cs)
  | fuel + 1, depth, cs => do
    let (v, cs) ← value? fuel depth cs
    match skipGap false cs with
    | ',' :: cs => do
      let (vs, cs) ← items? fuel depth (skipGap false cs)
      return (v :: vs, cs)
    | ']' :: cs => return ([v], cs)
    | _ => none

/-- The rows of a table in braces up to its closing brace. -/
def members? : (fuel depth : Nat) → Rows → List Char → Option (Rows × List Char)
  | 0, _, _, _ => none
  | _, _, rows, '\x7d' :: cs => some (rows, cs)
  | fuel + 1, depth, rows, cs => do
    let (path, key, cs) ← keys? depthLimit cs
    let '=' :: cs := skipGap false cs | none
    let (v, cs) ← value? fuel depth (skipGap false cs)
    let rows ← rows.addDotted path key v .inline
    match skipGap false cs with
    | ',' :: cs => members? fuel depth rows (skipGap false cs)
    | '\x7d' :: cs => return (rows, cs)
    | _ => none

end

/-! ### Documents -/

/-- Reads lines into the root table; `header` leads to the table that is being filled. -/
def lines? : (fuel : Nat) → (header : List String) → Rows → List Char → Option Rows
  | 0, _, _, _ => none
  | fuel + 1, header, rows, cs =>
    match skipSpace cs with
    | [] => some rows
    | '[' :: '[' :: cs => do
      let (path, key, cs) ← keys? depthLimit cs
      let ']' :: ']' :: cs := cs | none
      lines? fuel (path ++ [key]) (← rows.openNext path key) (← endLine? cs)
    | '[' :: cs => do
      let (path, key, cs) ← keys? depthLimit cs
      let ']' :: cs := cs | none
      lines? fuel (path ++ [key]) (← rows.openTable path key) (← endLine? cs)
    | cs =>
      match endLine? cs with
      | some rest => lines? fuel header rows rest
      | none => do
        let (path, key, cs) ← keys? depthLimit cs
        let '=' :: cs := cs | none
        let (v, cs) ← value? (2 * cs.length + 2) depthLimit (skipSpace cs)
        lines? fuel header (← rows.addBelow header path key v) (← endLine? cs)

/-- The root table of a document, which may begin with a byte order mark. -/
def parse (text : String) : Option Value :=
  let cs :=
    match text.toList with
    | '\ufeff' :: cs => cs
    | cs => cs
  (lines? (cs.length + 1) [] [] cs).map (.table .header)

/-! ### Writing strings -/

/-- The longest run of a character. -/
def longestRun (c : Char) : (run : Nat) → List Char → Nat
  | run, [] => run
  | run, d :: cs => if d = c then longestRun c (run + 1) cs else max run (longestRun c 0 cs)

def upperHex (n : Nat) : List Char := (Hexadecimal.render n).map Char.toUpper

/-- Escapes for a string in double quotes. On several lines newlines stay, and so do quotes as long
as no three of them come together. -/
def escapeAll (several : Bool) : (quotes : Nat) → List Char → List Char
  | _, [] => []
  | quotes, '"' :: cs =>
    if several ∧ quotes < 2 then '"' :: escapeAll several (quotes + 1) cs
    else '\\' :: '"' :: escapeAll several 0 cs
  | _, c :: cs =>
    let rest := escapeAll several 0 cs
    match c with
    | '\x08' => '\\' :: 'b' :: rest
    | '\t' => '\\' :: 't' :: rest
    | '\n' => if several then '\n' :: rest else '\\' :: 'n' :: rest
    | '\x0c' => '\\' :: 'f' :: rest
    | '\r' => '\\' :: 'r' :: rest
    | '\\' => '\\' :: '\\' :: rest
    | c =>
      if isPlain c then c :: rest
      else
        let digits := upperHex c.toNat
        '\\' :: 'u' :: List.replicate (4 - digits.length) '0' ++ digits ++ rest

/-- The plainest form of a string: in quotes as it is, else in single quotes, else on several lines,
and only then with escapes. -/
def quote (s : String) : String :=
  let cs := s.toList
  let controls := cs.any (fun c => !isPlain c && c != '\n')
  let newline := cs.contains '\n'
  let backslash := cs.contains '\\'
  let double := longestRun '"' 0 cs
  let single := longestRun '\'' 0 cs
  let first := if newline then ['\n'] else []
  let triple (q : Char) (body : List Char) : List Char := [q, q, q] ++ first ++ body ++ [q, q, q]
  String.ofList <|
    if !controls ∧ !newline ∧ !backslash ∧ double = 0 then '"' :: escapeAll false 0 cs ++ ['"']
    else if !controls ∧ !newline ∧ single = 0 then '\'' :: cs ++ ['\'']
    else if !controls ∧ !backslash ∧ double ≤ 2 then triple '"' (escapeAll true 0 cs)
    else if !controls ∧ single ≤ 2 then triple '\'' cs
    else if newline then triple '"' (escapeAll true 0 cs)
    else '"' :: escapeAll false 0 cs ++ ['"']

end RouteProgramming.Toml
