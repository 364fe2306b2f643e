import RouteProgramming.Proofs.TextFormat.Words
import RouteProgramming.TextFormat

/-! The reader accepts every rendering of a message. A rendering puts the words of
the fields one after the other, in order, with blanks between them at will; what
it leaves open is the quotes, how a text is split into literals, the brackets,
and the colon before a message. The lines that the reader notes beside the names
depend on the rendering; what a message says is the message without them. -/

namespace RouteProgramming.TextFormat

/-! ### What a message says -/

inductive Content where
  | scalar (text : String) (quoted : Bool)
  | message (fields : List (String × Content))

mutual

def Value.content : Value → Content
  | .scalar text quoted => .scalar text quoted
  | .message fields => .message (contents fields)

def contents : List (Field Value) → List (String × Content)
  | [] => []
  | f :: fs => f.content :: contents fs

def Field.content : Field Value → String × Content
  | ⟨name, value, _⟩ => (name, value.content)

end

/-! ### Renderings -/

/-- A text in one or more literals, with blanks after each. -/
inductive Literals : List Char → List Char → Prop
  | last {text w b : List Char} (literal : Literal text w) (blanks : Blanks b) : Literals text (w ++ b)
  | more {text w b text' ws : List Char} (literal : Literal text w) (blanks : Blanks b) (rest : Literals text' ws) :
    Literals (text ++ text') (w ++ (b ++ ws))

/-- The two ways to enclose a message. -/
def brackets : List (Char × Char) := [('\x7b', '\x7d'), ('<', '>')]

/-- The fields of a message, and a text of them. -/
inductive Renders : List (String × Content) → List Char → Prop
  | nil : Renders [] []
  | word {name text : String} {b₁ b₂ b₃ cs : List Char} {fields : List (String × Content)}
    (hname : IsName name.toList) (hb₁ : Blanks b₁) (hb₂ : Blanks b₂) (hword : IsName text.toList) (hb₃ : Blanks b₃)
    (apart : cs ≠ [] → b₃ ≠ []) (rest : Renders fields cs) :
    Renders ((name, .scalar text false) :: fields) (name.toList ++ (b₁ ++ ':' :: (b₂ ++ (text.toList ++ (b₃ ++ cs)))))
  | quoted {name : String} {text b₁ b₂ w cs : List Char} {fields : List (String × Content)}
    (hname : IsName name.toList) (hb₁ : Blanks b₁) (hb₂ : Blanks b₂) (hw : Literals text w) (rest : Renders fields cs) :
    Renders ((name, .scalar (String.ofList text) true) :: fields) (name.toList ++ (b₁ ++ ':' :: (b₂ ++ (w ++ cs))))
  | message {name : String} {b₁ colon b₂ w b₃ cs : List Char} {opening closing : Char}
    {inner fields : List (String × Content)} (hname : IsName name.toList) (hb₁ : Blanks b₁)
    (hcolon : colon = [] ∨ ∃ b, Blanks b ∧ colon = ':' :: b) (hbrackets : (opening, closing) ∈ brackets)
    (hb₂ : Blanks b₂) (body : Renders inner w) (hb₃ : Blanks b₃) (rest : Renders fields cs) :
    Renders ((name, .message inner) :: fields)
      (name.toList ++ (b₁ ++ (colon ++ opening :: (b₂ ++ (w ++ closing :: (b₃ ++ cs))))))

/-! ### Reading word by word -/

namespace Reader

open Lexeme

variable {r : Reader} {frames : List Frame} {fields inner : Message} {name : String} {l line : Nat} {cs : List Char}

/-- What comes of the rest of a text. -/
def read (r : Reader) (line : Nat) (cs : List Char) : Except TextError Message :=
  (r.run (scan line .between cs).1).bind (·.finish (scan line .between cs).2)

theorem read_blanks {b : List Char} (hb : Blanks b) : r.read line (b ++ cs) = r.read (line + b.count '\n') cs := by
  rw [read, scan_blanks hb, read]

theorem read_word {x : Lexeme} {ws : List Char} {s : Reader}
    (hscan : scan line .between ws = before x (scan line .between cs)) (hstep : r.step x = .ok s) :
    r.read line ws = s.read line cs := by
  rw [read, hscan, read, before, run, List.foldlM_cons, hstep]
  rfl

/-- A name and a closing bracket end the literals before them. -/
theorem step_of_settle {x : Lexeme} (hr : r.settle = ⟨frames, fields, .field⟩)
    (hx : x.token = .closing ∨ ∃ n, x.token = .name n) : r.step x = stepField ⟨frames, fields, .field⟩ x := by
  rw [step, ← hr]
  cases hexpecting : r.expecting with
  | field => rw [settle, hexpecting]
  | value n l colon =>
    rw [settle, hexpecting] at hr
    dsimp only at hr
    rw [hr] at hexpecting
    cases hexpecting
  | literal n l text => rcases hx with hx | ⟨n, hx⟩ <;> rw [hx]

theorem read_name {n : List Char} (hr : r.settle = ⟨frames, fields, .field⟩) (hn : IsName n) (stop : Stops cs) :
    r.read line (n ++ cs) = read ⟨frames, fields, .value (String.ofList n) line false⟩ line cs := by
  refine read_word (scan_name hn stop line) ?_
  rw [step_of_settle hr (.inr ⟨_, rfl⟩)]
  rfl

/-- At the end of a text with no message open, the fields are the message. -/
theorem read_nil (hr : r.settle = ⟨[], fields, .field⟩) : r.read line [] = .ok fields := by
  obtain ⟨frames, before, expecting⟩ := r
  cases expecting with
  | field => cases hr; rfl
  | value => cases hr
  | literal => cases hr; rfl

theorem read_colon :
    read ⟨frames, fields, .value name l false⟩ line (':' :: cs) = read ⟨frames, fields, .value name l true⟩ line cs :=
  read_word (scan_colon line cs) rfl

theorem read_bare {w : List Char} (hw : IsName w) (stop : Stops cs) :
    read ⟨frames, fields, .value name l true⟩ line (w ++ cs) =
      read ⟨frames, fields ++ [⟨name, .scalar (String.ofList w) false, l⟩], .field⟩ line cs :=
  read_word (scan_name hw stop line) rfl

theorem read_opening {c : Char} {colon : Bool} (hc : c ∈ ['\x7b', '<']) :
    read ⟨frames, fields, .value name l colon⟩ line (c :: cs) =
      read ⟨⟨name, l, fields⟩ :: frames, [], .field⟩ line cs :=
  read_word (scan_opening hc line cs) (by cases colon <;> rfl)

theorem read_closing {c : Char} (hc : c ∈ ['\x7d', '>'])
    (hr : r.settle = ⟨⟨name, l, fields⟩ :: frames, inner, .field⟩) :
    r.read line (c :: cs) = read ⟨frames, fields ++ [⟨name, .message inner, l⟩], .field⟩ line cs := by
  refine read_word (scan_closing hc line cs) ?_
  rw [step_of_settle hr (.inl rfl)]
  rfl

/-- Literals that go with those before them. -/
theorem read_literals_more {text w : List Char} (hw : Literals text w) (done : String) : ∃ line',
    read ⟨frames, fields, .literal name l done⟩ line (w ++ cs) =
      read ⟨frames, fields, .literal name l (done ++ String.ofList text)⟩ line' cs := by
  induction hw generalizing done line with
  | @last text w b literal blanks =>
    refine ⟨line + b.count '\n', ?_⟩
    rw [List.append_assoc, read_word (scan_literal literal line _) rfl, read_blanks blanks]
  | @more text w b text' ws literal blanks rest ih =>
    have hfirst : read ⟨frames, fields, .literal name l done⟩ line (w ++ (b ++ ws) ++ cs) =
        read ⟨frames, fields, .literal name l (done ++ String.ofList text)⟩ (line + b.count '\n') (ws ++ cs) := by
      rw [List.append_assoc, List.append_assoc, read_word (scan_literal literal line _) rfl, read_blanks blanks]
    rw [hfirst, String.ofList_append, ← String.append_assoc]
    exact ih _

theorem read_literals {text w : List Char} (hw : Literals text w) : ∃ line',
    read ⟨frames, fields, .value name l true⟩ line (w ++ cs) =
      read ⟨frames, fields, .literal name l (String.ofList text)⟩ line' cs := by
  cases hw with
  | @last text w b literal blanks =>
    refine ⟨line + b.count '\n', ?_⟩
    rw [List.append_assoc, read_word (scan_literal literal line _) rfl, read_blanks blanks]
  | @more text w b text' ws literal blanks rest =>
    have hfirst : read ⟨frames, fields, .value name l true⟩ line (w ++ (b ++ ws) ++ cs) =
        read ⟨frames, fields, .literal name l (String.ofList text)⟩ (line + b.count '\n') (ws ++ cs) := by
      rw [List.append_assoc, List.append_assoc, read_word (scan_literal literal line _) rfl, read_blanks blanks]
    rw [hfirst, String.ofList_append]
    exact read_literals_more rest _

/-! ### Reading fields -/

theorem read_word_field {b₁ b₂ b₃ : List Char} {text : String} (hr : r.settle = ⟨frames, fields, .field⟩)
    (hname : IsName name.toList) (hb₁ : Blanks b₁) (hb₂ : Blanks b₂) (hword : IsName text.toList) (hb₃ : Blanks b₃)
    (stop : Stops (b₃ ++ cs)) : ∃ line',
    r.read line (name.toList ++ (b₁ ++ ':' :: (b₂ ++ (text.toList ++ (b₃ ++ cs))))) =
      read ⟨frames, fields ++ [⟨name, .scalar text false, line⟩], .field⟩ line' cs := by
  refine ⟨line + b₁.count '\n' + b₂.count '\n' + b₃.count '\n', ?_⟩
  rw [read_name hr hname (stops_blanks hb₁ fun _ => stops_cons (by decide)), read_blanks hb₁, read_colon,
    read_blanks hb₂, read_bare hword stop, read_blanks hb₃, String.ofList_toList, String.ofList_toList]

theorem read_quoted_field {b₁ b₂ text w : List Char} (hr : r.settle = ⟨frames, fields, .field⟩)
    (hname : IsName name.toList) (hb₁ : Blanks b₁) (hb₂ : Blanks b₂) (hw : Literals text w) : ∃ line',
    r.read line (name.toList ++ (b₁ ++ ':' :: (b₂ ++ (w ++ cs)))) =
      read ⟨frames, fields, .literal name line (String.ofList text)⟩ line' cs := by
  rw [read_name hr hname (stops_blanks hb₁ fun _ => stops_cons (by decide)), read_blanks hb₁, read_colon,
    read_blanks hb₂, String.ofList_toList]
  exact read_literals hw

/-- A name up to the opening bracket of its message; the colon may be there or not. -/
theorem read_opened {b₁ colon b₂ : List Char} {c : Char} (hr : r.settle = ⟨frames, fields, .field⟩)
    (hname : IsName name.toList) (hb₁ : Blanks b₁) (hcolon : colon = [] ∨ ∃ b, Blanks b ∧ colon = ':' :: b)
    (hc : c ∈ ['\x7b', '<']) (hb₂ : Blanks b₂) (line : Nat) (cs : List Char) : ∃ line',
    r.read line (name.toList ++ (b₁ ++ (colon ++ c :: (b₂ ++ cs)))) =
      read ⟨⟨name, line, fields⟩ :: frames, [], .field⟩ line' cs := by
  have hbracket : Stops (c :: (b₂ ++ cs)) := stops_cons (not_isNameChar_of_bracket (.inl hc))
  rcases hcolon with rfl | ⟨b, hb, rfl⟩
  · refine ⟨line + b₁.count '\n' + b₂.count '\n', ?_⟩
    rw [List.nil_append, read_name hr hname (stops_blanks hb₁ fun _ => hbracket), read_blanks hb₁, read_opening hc,
      read_blanks hb₂, String.ofList_toList]
  · refine ⟨line + b₁.count '\n' + b.count '\n' + b₂.count '\n', ?_⟩
    rw [List.cons_append, read_name hr hname (stops_blanks hb₁ fun _ => stops_cons (by decide)), read_blanks hb₁,
      read_colon, read_blanks hb, read_opening hc, read_blanks hb₂, String.ofList_toList]

/-! ### Reading renderings -/

/-- On the way from `w` to `cs` the reader takes fields that say `fs`, after those it has, and is then ready for more. -/
def Reads (r : Reader) (line : Nat) (w cs : List Char) (frames : List Frame) (fields : Message)
    (fs : List (String × Content)) : Prop :=
  ∃ (s : Reader) (line' : Nat) (new : Message), r.read line w = s.read line' cs ∧
    s.settle = ⟨frames, fields ++ new, .field⟩ ∧ contents new = fs

/-- A field, and then the others. -/
theorem Reads.cons {s : Reader} {f : Field Value} {w ws : List Char} {fs : List (String × Content)}
    (first : ∃ line', r.read line w = s.read line' ws) (h : ∀ line', s.Reads line' ws cs frames (fields ++ [f]) fs) :
    r.Reads line w cs frames fields (f.content :: fs) := by
  obtain ⟨line', hfirst⟩ := first
  obtain ⟨t, line'', new, hread, hsettle, hsays⟩ := h line'
  refine ⟨t, line'', f :: new, hfirst.trans hread, ?_, ?_⟩
  · rw [hsettle, List.append_assoc, List.singleton_append]
  · rw [contents, hsays]

/-- A message from its first field to behind its closing bracket. -/
theorem Reads.closed {b w : List Char} {c : Char} {fs : List (String × Content)} (hc : c ∈ ['\x7d', '>'])
    (h : r.Reads line w (c :: (b ++ cs)) (⟨name, l, fields⟩ :: frames) [] fs) (hb : Blanks b) :
    ∃ line' inner, r.read line w = read ⟨frames, fields ++ [⟨name, .message inner, l⟩], .field⟩ line' cs ∧
      contents inner = fs := by
  obtain ⟨s, line', inner, hread, hsettle, hsays⟩ := h
  rw [List.nil_append] at hsettle
  refine ⟨line' + b.count '\n', inner, ?_, hsays⟩
  rw [hread, read_closing hc hsettle, read_blanks hb]

/-- A rendering is read as fields that say what was rendered. -/
theorem read_renders {fs : List (String × Content)} {ws : List Char} (h : Renders fs ws)
    (hr : r.settle = ⟨frames, fields, .field⟩) (stop : Stops cs) : r.Reads line (ws ++ cs) cs frames fields fs := by
  induction h generalizing r line cs frames fields with
  | nil => exact ⟨r, line, [], rfl, by rw [hr, List.append_nil], rfl⟩
  | @word name text b₁ b₂ b₃ ws fs hname hb₁ hb₂ hword hb₃ apart rest ih =>
    have hbare : Stops (b₃ ++ (ws ++ cs)) := stops_blanks hb₃ fun hnil => by
      rw [Decidable.not_imp_not.1 apart hnil]
      exact stop
    simp only [List.append_assoc, List.cons_append]
    exact .cons (f := ⟨name, .scalar text false, line⟩) (read_word_field hr hname hb₁ hb₂ hword hb₃ hbare)
      fun _ => ih rfl stop
  | @quoted name text b₁ b₂ w ws fs hname hb₁ hb₂ hw rest ih =>
    simp only [List.append_assoc, List.cons_append]
    exact .cons (f := ⟨name, .scalar (String.ofList text) true, line⟩) (read_quoted_field hr hname hb₁ hb₂ hw)
      fun _ => ih rfl stop
  | @message name b₁ colon b₂ w b₃ ws opening closing inner fs hname hb₁ hcolon hbrackets hb₂ body hb₃ rest ihbody ih =>
    obtain ⟨hopening, hclosing⟩ : opening ∈ ['\x7b', '<'] ∧ closing ∈ ['\x7d', '>'] := by
      simp only [brackets, List.mem_cons, Prod.mk.injEq, List.not_mem_nil, or_false] at hbrackets
      rcases hbrackets with ⟨rfl, rfl⟩ | ⟨rfl, rfl⟩ <;> simp
    have hend : Stops (closing :: (b₃ ++ (ws ++ cs))) := stops_cons (not_isNameChar_of_bracket (.inr hclosing))
    obtain ⟨l, hopened⟩ := read_opened hr hname hb₁ hcolon hopening hb₂ line (w ++ closing :: (b₃ ++ (ws ++ cs)))
    have hbody : Reads ⟨⟨name, line, fields⟩ :: frames, [], .field⟩ l _ _ _ _ inner := ihbody rfl hend
    obtain ⟨line', fields', hclosed, rfl⟩ := hbody.closed hclosing hb₃
    simp only [List.append_assoc, List.cons_append]
    exact .cons (f := ⟨name, .message fields', line⟩) ⟨line', hopened.trans hclosed⟩ fun _ => ih rfl stop

end Reader

/-! ### Documents -/

open Reader

/-- A text of a whole message: blanks, and then its fields. -/
def IsDocument (fields : List (String × Content)) (s : String) : Prop :=
  ∃ b ws, Blanks b ∧ Renders fields ws ∧ s.toList = b ++ ws

theorem parse_document {fields : List (String × Content)} {s : String} (h : IsDocument fields s) :
    ∃ m, Message.parse s = .ok m ∧ contents m = fields := by
  obtain ⟨b, ws, hb, hws, hs⟩ := h
  have hfields : Reads {} (1 + b.count '\n') (ws ++ []) [] [] [] fields := read_renders hws rfl Lexeme.stops_nil
  obtain ⟨r, line, new, hread, hsettle, hsays⟩ := hfields
  have hparse : Message.parse s = r.read line [] := by
    change read {} 1 s.toList = _
    rw [hs, read_blanks hb, ← hread, List.append_nil]
  exact ⟨new, hparse.trans (read_nil hsettle), hsays⟩

/-- The names and bare words of a message, at any depth, are names. -/
inductive Writable : List (String × Content) → Prop
  | nil : Writable []
  | word {name text : String} {fields : List (String × Content)} (hname : IsName name.toList)
    (hword : IsName text.toList) (rest : Writable fields) : Writable ((name, .scalar text false) :: fields)
  | quoted {name text : String} {fields : List (String × Content)} (hname : IsName name.toList)
    (rest : Writable fields) : Writable ((name, .scalar text true) :: fields)
  | message {name : String} {inner fields : List (String × Content)} (hname : IsName name.toList)
    (body : Writable inner) (rest : Writable fields) : Writable ((name, .message inner) :: fields)

theorem exists_body (text : List Char) : ∃ w, Body '"' text w := by
  induction text with
  | nil => exact ⟨[], .nil⟩
  | cons c text ih =>
    obtain ⟨w, hw⟩ := ih
    by_cases hspecial : c ∈ ['"', '\\', '\n']
    · simp only [List.mem_cons, List.not_mem_nil, or_false] at hspecial
      rcases hspecial with rfl | rfl | rfl
      · exact ⟨_, .escape (e := '"') (by decide) hw⟩
      · exact ⟨_, .escape (e := '\\') (by decide) hw⟩
      · exact ⟨_, .escape (e := 'n') (by decide) hw⟩
    · simp only [List.mem_cons, List.not_mem_nil, or_false, not_or] at hspecial
      exact ⟨c :: w, .plain hspecial.1 hspecial.2.1 hspecial.2.2 hw⟩

theorem Writable.exists_renders {fields : List (String × Content)} (h : Writable fields) : ∃ ws, Renders fields ws := by
  induction h with
  | nil => exact ⟨[], .nil⟩
  | word hname hword rest ih =>
    obtain ⟨ws, hws⟩ := ih
    exact ⟨_, .word hname .nil .nil hword (.blank (c := ' ') (by decide) .nil) (fun _ => List.cons_ne_nil _ _) hws⟩
  | @quoted name text fields hname rest ih =>
    obtain ⟨ws, hws⟩ := ih
    obtain ⟨w, hw⟩ := exists_body text.toList
    have hliteral : Literals text.toList _ := .last (.quoted (by decide) hw) .nil
    have hrenders := Renders.quoted hname .nil .nil hliteral hws
    rw [String.ofList_toList] at hrenders
    exact ⟨_, hrenders⟩
  | message hname body rest ihbody ih =>
    obtain ⟨w, hw⟩ := ihbody
    obtain ⟨ws, hws⟩ := ih
    exact ⟨_, .message hname .nil (.inl rfl) (List.mem_cons_self) .nil hw .nil hws⟩

theorem Renders.writable {fields : List (String × Content)} {ws : List Char} (h : Renders fields ws) :
    Writable fields := by
  induction h with
  | nil => exact .nil
  | word hname hb₁ hb₂ hword hb₃ apart rest ih => exact .word hname hword ih
  | quoted hname hb₁ hb₂ hw rest ih => exact .quoted hname ih
  | message hname hb₁ hcolon hbrackets hb₂ body hb₃ rest ihbody ih => exact .message hname ihbody ih

/-- There are texts of exactly the messages whose names and bare words are names, and every text of a message is read as that
message: the same fields in the same order, at every depth, with their names, values and quotes. -/
theorem documents_parse (fields : List (String × Content)) :
    (Writable fields ↔ ∃ s, IsDocument fields s) ∧
      ∀ s, IsDocument fields s → ∃ m, Message.parse s = .ok m ∧ contents m = fields := by
  refine ⟨⟨fun h => ?_, fun h => ?_⟩, fun s hs => parse_document hs⟩
  · obtain ⟨ws, hws⟩ := h.exists_renders
    exact ⟨String.ofList ws, [], ws, .nil, hws, String.toList_ofList⟩
  · obtain ⟨s, b, ws, hb, hws, hs⟩ := h
    exact hws.writable

/-- A message with a message in it, and an empty one in that. -/
def nested : List (String × Content) :=
  [("id", .scalar "2" false), ("dut", .message [("text", .scalar "it's" true), ("port", .message [])])]

/-- A text of it: a comment, both kinds of brackets and of quotes, and a text in two literals. -/
def nestedText : String := "id: 2# two\ndut: <text:'it' \"'s\"port \x7b\x7d>"

theorem documents_parse_nested : IsDocument nested nestedText ∧
    ∃ m, Message.parse nestedText = .ok m ∧ contents m = nested := by
  have hport : Renders [("port", .message [])] _ :=
    .message (Lexeme.isName_iff.2 (by decide)) (.blank (c := ' ') (by decide) .nil) (.inl rfl)
      (show ('\x7b', '\x7d') ∈ brackets by decide) .nil .nil .nil .nil
  have hit : Literal ['i', 't'] _ :=
    .quoted (show '\'' ∈ ['"', '\''] by decide) (.plain (by decide) (by decide) (by decide)
      (.plain (by decide) (by decide) (by decide) .nil))
  have his : Literal ['\'', 's'] _ :=
    .quoted (show '"' ∈ ['"', '\''] by decide) (.plain (by decide) (by decide) (by decide)
      (.plain (by decide) (by decide) (by decide) .nil))
  have htext : Renders (("text", .scalar "it's" true) :: [("port", .message [])]) _ :=
    .quoted (Lexeme.isName_iff.2 (by decide)) .nil .nil (.more hit (.blank (c := ' ') (by decide) .nil) (.last his .nil)) hport
  have hdut : Renders [("dut", .message _)] _ :=
    .message (Lexeme.isName_iff.2 (by decide)) .nil (.inr ⟨[' '], .blank (by decide) .nil, rfl⟩)
      (show ('<', '>') ∈ brackets by decide) .nil htext .nil .nil
  have hid : Renders nested _ :=
    .word (Lexeme.isName_iff.2 (by decide)) .nil (.blank (c := ' ') (by decide) .nil) (Lexeme.isName_iff.2 (by decide))
      (.comment (show '\n' ∉ " two".toList by decide) (by decide) .nil) (fun _ => List.cons_ne_nil _ _) hdut
  have hdocument : IsDocument nested nestedText := ⟨[], _, .nil, hid, by decide⟩
  exact ⟨hdocument, (documents_parse nested).2 _ hdocument⟩

end RouteProgramming.TextFormat
