import RouteProgramming.Proofs.TextFormat.Positions
import RouteProgramming.TextFormat

/-! How words make a message, and what is wrong where they make none. The reader
takes one word at a time; what it has taken is always the openings of the messages
on its stack, each behind the fields before it, then fields, then the beginning of
a field. So the words of a text that is read are those of its message, and an
error is that of the first word which cannot follow those before it, or of the end.
Lines follow: a field is on the line of its name, and an error on a line of the text. -/

namespace RouteProgramming.TextFormat

/-! ### Words of messages -/

/-- Literals that stand together, and the text that they make. -/
inductive Joined : List Lexeme → String → Prop
  | one {text : String} {l : Nat} : Joined [⟨.literal text, l⟩] text
  | more {xs : List Lexeme} {text more : String} {l : Nat} (first : Joined xs text) :
    Joined (xs ++ [⟨.literal more, l⟩]) (text ++ more)

/-- The words of a message. A field is on the line of its name. -/
inductive Phrased : List Lexeme → Message → Prop
  | nil : Phrased [] []
  | word {name text : String} {l l₁ l₂ : Nat} {xs : List Lexeme} {fields : Message} (rest : Phrased xs fields) :
    Phrased (⟨.name name, l⟩ :: ⟨.colon, l₁⟩ :: ⟨.name text, l₂⟩ :: xs) (⟨name, .scalar text false, l⟩ :: fields)
  | quoted {name text : String} {l l₁ : Nat} {ys xs : List Lexeme} {fields : Message} (joined : Joined ys text)
    (rest : Phrased xs fields) :
    Phrased (⟨.name name, l⟩ :: ⟨.colon, l₁⟩ :: (ys ++ xs)) (⟨name, .scalar text true, l⟩ :: fields)
  | message {name : String} {l l₁ l₂ : Nat} {colon ys xs : List Lexeme} {inner fields : Message}
    (hcolon : colon = [] ∨ ∃ lc, colon = [⟨.colon, lc⟩]) (body : Phrased ys inner) (rest : Phrased xs fields) :
    Phrased (⟨.name name, l⟩ :: (colon ++ ⟨.opening, l₁⟩ :: (ys ++ ⟨.closing, l₂⟩ :: xs)))
      (⟨name, .message inner, l⟩ :: fields)

/-- The words up to the first field of the innermost open message. -/
inductive Opened : List Lexeme → List Frame → Prop
  | nil : Opened [] []
  | cons {xs ys colon : List Lexeme} {frames : List Frame} {fields : Message} {name : String} {l l₁ : Nat}
    (outer : Opened xs frames) (before : Phrased ys fields) (hcolon : colon = [] ∨ ∃ lc, colon = [⟨.colon, lc⟩]) :
    Opened (xs ++ (ys ++ ⟨.name name, l⟩ :: (colon ++ [⟨.opening, l₁⟩]))) (⟨name, l, fields⟩ :: frames)

/-- The words up to where a field is due or the end of a message. -/
inductive Begun : List Lexeme → List Frame → Message → Prop
  | intro {xs ys : List Lexeme} {frames : List Frame} {fields : Message} (opened : Opened xs frames)
    (phrased : Phrased ys fields) : Begun (xs ++ ys) frames fields

/-- The words that bring the reader where it is. -/
inductive Follows : List Lexeme → Reader → Prop
  | field {xs : List Lexeme} {frames : List Frame} {fields : Message} (begun : Begun xs frames fields) :
    Follows xs ⟨frames, fields, .field⟩
  | name {xs : List Lexeme} {frames : List Frame} {fields : Message} {n : String} {l : Nat}
    (begun : Begun xs frames fields) : Follows (xs ++ [⟨.name n, l⟩]) ⟨frames, fields, .value n l false⟩
  | colon {xs : List Lexeme} {frames : List Frame} {fields : Message} {n : String} {l l₁ : Nat}
    (begun : Begun xs frames fields) :
    Follows (xs ++ [⟨.name n, l⟩, ⟨.colon, l₁⟩]) ⟨frames, fields, .value n l true⟩
  | literal {xs ys : List Lexeme} {frames : List Frame} {fields : Message} {n text : String} {l l₁ : Nat}
    (begun : Begun xs frames fields) (joined : Joined ys text) :
    Follows (xs ++ ⟨.name n, l⟩ :: ⟨.colon, l₁⟩ :: ys) ⟨frames, fields, .literal n l text⟩

/-- The words of a text that is no message with the line of its end, and the error of the first that cannot follow. -/
inductive Fails : List Lexeme → Nat → TextError → Prop
  /-- A literal that breaks off where a value is due, or behind literals. -/
  | literal {xs ys zs : List Lexeme} {frames : List Frame} {fields : Message} {n : String} {l l₁ lb last : Nat}
    {fault : LiteralFault} (begun : Begun xs frames fields) (joined : ys = [] ∨ ∃ text, Joined ys text) :
    Fails (xs ++ ⟨.name n, l⟩ :: ⟨.colon, l₁⟩ :: (ys ++ ⟨.broken fault, lb⟩ :: zs)) last ⟨lb, .ofLiteral fault⟩
  /-- Neither a name nor a bracket that closes an open message. -/
  | name {xs zs : List Lexeme} {x : Lexeme} {frames : List Frame} {fields : Message} {last : Nat}
    (begun : Begun xs frames fields) (name : ∀ n, x.token ≠ .name n) (closing : x.token = .closing → frames = []) :
    Fails (xs ++ x :: zs) last ⟨x.line, .expectedName⟩
  /-- No value behind a name. -/
  | value {xs zs : List Lexeme} {x : Lexeme} {frames : List Frame} {fields : Message} {n : String} {l last : Nat}
    (begun : Begun xs frames fields) (colon : x.token ≠ .colon) (opening : x.token ≠ .opening) :
    Fails (xs ++ ⟨.name n, l⟩ :: x :: zs) last ⟨x.line, .expectedValue n⟩
  /-- No value behind a name and a colon. -/
  | colon {xs zs : List Lexeme} {x : Lexeme} {frames : List Frame} {fields : Message} {n : String} {l l₁ last : Nat}
    (begun : Begun xs frames fields) (opening : x.token ≠ .opening) (name : ∀ text, x.token ≠ .name text)
    (literal : ∀ text, x.token ≠ .literal text) (broken : ∀ fault, x.token ≠ .broken fault) :
    Fails (xs ++ ⟨.name n, l⟩ :: ⟨.colon, l₁⟩ :: x :: zs) last ⟨x.line, .expectedValue n⟩
  /-- The end of the text where a value is due. -/
  | valueless {xs colon : List Lexeme} {frames : List Frame} {fields : Message} {n : String} {l last : Nat}
    (begun : Begun xs frames fields) (hcolon : colon = [] ∨ ∃ lc, colon = [⟨.colon, lc⟩]) :
    Fails (xs ++ ⟨.name n, l⟩ :: colon) last ⟨last, .expectedValue n⟩
  /-- The end of the text in an open message. -/
  | unclosed {xs : List Lexeme} {frame : Frame} {frames : List Frame} {fields : Message} {last : Nat}
    (begun : Begun xs (frame :: frames) fields) : Fails xs last ⟨last, .missingClosing⟩

/-! ### Fields one after the other -/

theorem Phrased.append {xs ys : List Lexeme} {fields more : Message} (h : Phrased xs fields)
    (h' : Phrased ys more) : Phrased (xs ++ ys) (fields ++ more) := by
  induction h with
  | nil => exact h'
  | word rest ih => exact .word ih
  | quoted joined rest ihrest =>
    simp only [List.cons_append, List.append_assoc]
    exact .quoted joined ihrest
  | message hcolon body rest ihbody ihrest =>
    simp only [List.cons_append, List.append_assoc]
    exact .message hcolon body ihrest

namespace Begun

variable {xs ys : List Lexeme} {frames : List Frame} {fields more : Message} {n text : String} {l l₁ l₂ : Nat}

theorem append (h : Begun xs frames fields) (h' : Phrased ys more) : Begun (xs ++ ys) frames (fields ++ more) := by
  obtain ⟨opened, phrased⟩ := h
  rw [List.append_assoc]
  exact .intro opened (phrased.append h')

theorem word (h : Begun xs frames fields) (n text : String) (l l₁ l₂ : Nat) :
    Begun (xs ++ [⟨.name n, l⟩, ⟨.colon, l₁⟩, ⟨.name text, l₂⟩]) frames (fields ++ [⟨n, .scalar text false, l⟩]) :=
  h.append (.word .nil)

theorem quoted (h : Begun xs frames fields) (joined : Joined ys text) (n : String) (l l₁ : Nat) :
    Begun (xs ++ ⟨.name n, l⟩ :: ⟨.colon, l₁⟩ :: ys) frames (fields ++ [⟨n, .scalar text true, l⟩]) := by
  have hfield : Phrased (⟨.name n, l⟩ :: ⟨.colon, l₁⟩ :: (ys ++ [])) [⟨n, .scalar text true, l⟩] := .quoted joined .nil
  rw [List.append_nil] at hfield
  exact h.append hfield

theorem opening {colon : List Lexeme} (h : Begun xs frames fields)
    (hcolon : colon = [] ∨ ∃ lc, colon = [⟨.colon, lc⟩]) (n : String) (l l₁ : Nat) :
    Begun (xs ++ ⟨.name n, l⟩ :: (colon ++ [⟨.opening, l₁⟩])) (⟨n, l, fields⟩ :: frames) [] := by
  obtain ⟨opened, phrased⟩ := h
  rw [List.append_assoc, ← List.append_nil (_ ++ _)]
  exact .intro (.cons opened phrased hcolon) .nil

theorem closing (h : Begun xs (⟨n, l, fields⟩ :: frames) more) :
    Begun (xs ++ [⟨.closing, l₂⟩]) frames (fields ++ [⟨n, .message more, l⟩]) := by
  obtain @⟨_, zs, _, _, opened, phrased⟩ := h
  cases opened with
  | @cons xs ys colon _ _ _ _ l₁ outer before hcolon =>
    have hclosed : Begun (xs ++ (ys ++ ⟨.name n, l⟩ :: (colon ++ ⟨.opening, l₁⟩ :: (zs ++ [⟨.closing, l₂⟩])))) frames
        (fields ++ [⟨n, .message more, l⟩]) :=
      .intro outer (before.append (.message hcolon phrased .nil))
    simpa using hclosed

end Begun

/-! ### One word -/

/-- What a word behind others is to the reader. -/
def Goes (xs : List Lexeme) (x : Lexeme) : Except TextError Reader → Prop
  | .ok r => Follows (xs ++ [x]) r
  | .error e => ∀ zs last, Fails (xs ++ x :: zs) last e

theorem Begun.stepField {xs : List Lexeme} {frames : List Frame} {fields : Message}
    (h : Begun xs frames fields) (x : Lexeme) : Goes xs x (Reader.stepField ⟨frames, fields, .field⟩ x) := by
  obtain ⟨token, line⟩ := x
  unfold Reader.stepField
  split
  case h_1 htoken =>
    cases htoken
    exact .name h
  case h_2 htoken hframes =>
    cases htoken
    cases hframes
    exact .field h.closing
  case h_3 hname hclosing =>
    intro zs last
    refine .name h (fun n hn => hname n hn) fun htoken => ?_
    cases hframes : frames with
    | nil => rfl
    | cons frame frames => exact (hclosing _ _ _ _ htoken hframes).elim

theorem Begun.stepName {xs : List Lexeme} {frames : List Frame} {fields : Message}
    (h : Begun xs frames fields) (n : String) (l : Nat) (x : Lexeme) :
    Goes (xs ++ [⟨.name n, l⟩]) x (Reader.stepValue ⟨frames, fields, .value n l false⟩ n l false x) := by
  obtain ⟨token, line⟩ := x
  have hnone (colon : token ≠ .colon) (opening : token ≠ .opening) :
      Goes (xs ++ [⟨.name n, l⟩]) ⟨token, line⟩ (.error ⟨line, .expectedValue n⟩) := by
    intro zs last
    simpa using Fails.value h colon opening
  cases token with
  | opening =>
    have hopened := h.opening (.inl rfl) n l line
    exact .field (by simpa using hopened)
  | colon =>
    have hcolon : Follows (xs ++ [⟨.name n, l⟩, ⟨.colon, line⟩]) ⟨frames, fields, .value n l true⟩ := .colon h
    simpa [Goes, Reader.stepValue] using hcolon
  | name => exact hnone nofun nofun
  | literal => exact hnone nofun nofun
  | closing => exact hnone nofun nofun
  | broken => exact hnone nofun nofun
  | stray => exact hnone nofun nofun

theorem Begun.stepColon {xs : List Lexeme} {frames : List Frame} {fields : Message}
    (h : Begun xs frames fields) (n : String) (l l₁ : Nat) (x : Lexeme) :
    Goes (xs ++ [⟨.name n, l⟩, ⟨.colon, l₁⟩]) x (Reader.stepValue ⟨frames, fields, .value n l true⟩ n l true x) := by
  obtain ⟨token, line⟩ := x
  have hnone (opening : token ≠ .opening) (name : ∀ text, token ≠ .name text) (literal : ∀ text, token ≠ .literal text)
      (broken : ∀ fault, token ≠ .broken fault) :
      Goes (xs ++ [⟨.name n, l⟩, ⟨.colon, l₁⟩]) ⟨token, line⟩ (.error ⟨line, .expectedValue n⟩) := by
    intro zs last
    simpa using Fails.colon h opening name literal broken
  cases token with
  | opening =>
    have hopened := h.opening (.inr ⟨l₁, rfl⟩) n l line
    exact .field (by simpa using hopened)
  | name text =>
    have hword := h.word n text l l₁ line
    exact .field (by simpa using hword)
  | literal text =>
    have hliteral : Follows (xs ++ [⟨.name n, l⟩, ⟨.colon, l₁⟩, ⟨.literal text, line⟩])
        ⟨frames, fields, .literal n l text⟩ := .literal h .one
    simpa [Goes, Reader.stepValue] using hliteral
  | broken fault =>
    intro zs last
    simpa using Fails.literal h (.inl rfl)
  | colon => exact hnone nofun nofun nofun nofun
  | closing => exact hnone nofun nofun nofun nofun
  | stray => exact hnone nofun nofun nofun nofun

theorem Begun.stepLiteral {xs ys : List Lexeme} {frames : List Frame} {fields : Message} {n text : String} {l l₁ : Nat}
    (h : Begun xs frames fields) (joined : Joined ys text) (x : Lexeme) :
    Goes (xs ++ ⟨.name n, l⟩ :: ⟨.colon, l₁⟩ :: ys) x (Reader.step ⟨frames, fields, .literal n l text⟩ x) := by
  obtain ⟨token, line⟩ := x
  have hfield := (h.quoted joined n l l₁).stepField ⟨token, line⟩
  cases token with
  | literal more =>
    have hmore : Follows (xs ++ ⟨.name n, l⟩ :: ⟨.colon, l₁⟩ :: (ys ++ [⟨.literal more, line⟩]))
        ⟨frames, fields, .literal n l (text ++ more)⟩ := .literal h (.more joined)
    simpa [Goes, Reader.step] using hmore
  | broken fault =>
    intro zs last
    simpa using Fails.literal h (.inr ⟨text, joined⟩)
  | name => exact hfield
  | colon => exact hfield
  | opening => exact hfield
  | closing => exact hfield
  | stray => exact hfield

theorem Follows.step {xs : List Lexeme} {r : Reader} (h : Follows xs r) (x : Lexeme) : Goes xs x (r.step x) := by
  cases h with
  | field begun => exact begun.stepField x
  | name begun => exact begun.stepName _ _ x
  | colon begun => exact begun.stepColon _ _ _ x
  | literal begun joined => exact begun.stepLiteral joined x

/-! ### All words -/

/-- What comes of words behind others. -/
theorem Follows.run {xs : List Lexeme} {r : Reader} (h : Follows xs r) (ys : List Lexeme) :
    match r.run ys with
    | .ok r' => Follows (xs ++ ys) r'
    | .error e => ∀ last, Fails (xs ++ ys) last e := by
  induction ys generalizing xs r with
  | nil =>
    rw [List.append_nil]
    exact h
  | cons y ys ih =>
    have hstep := h.step y
    rw [Reader.run, List.foldlM_cons]
    cases hy : r.step y with
    | ok r' =>
      rw [hy] at hstep
      have hrun := ih hstep
      rw [List.append_assoc] at hrun
      exact hrun
    | error e =>
      rw [hy] at hstep
      exact hstep ys

theorem Begun.phrased {xs : List Lexeme} {fields : Message} (h : Begun xs [] fields) : Phrased xs fields := by
  obtain ⟨opened, phrased⟩ := h
  cases opened with
  | nil => exact phrased

/-- What comes of the end. -/
theorem Follows.finish {xs : List Lexeme} {r : Reader} (h : Follows xs r) (last : Nat) :
    match r.finish last with
    | .ok m => Phrased xs m
    | .error e => Fails xs last e := by
  cases h with
  | @field _ frames _ begun =>
    cases frames with
    | nil => exact begun.phrased
    | cons frame frames => exact .unclosed begun
  | name begun => exact .valueless begun (.inl rfl)
  | @colon _ _ _ _ _ l₁ begun => exact .valueless begun (.inr ⟨l₁, rfl⟩)
  | @literal _ _ frames _ _ _ _ _ begun joined =>
    cases frames with
    | nil => exact (begun.quoted joined _ _ _).phrased
    | cons frame frames => exact .unclosed (begun.quoted joined _ _ _)

/-- The words of a text are those of the message it is read as, or tell what is wrong with it. -/
theorem parse_words (s : String) : ∃ xs last, Words [] s.toList xs last ∧
    match Message.parse s with
    | .ok m => Phrased xs m
    | .error e => Fails xs last e := by
  refine ⟨_, _, Lexeme.words_ofChars s.toList, ?_⟩
  have hstart : Follows [] {} := .field (.intro .nil .nil)
  have hrun := hstart.run (Lexeme.ofChars s.toList).1
  unfold Message.parse
  dsimp only
  cases h : Reader.run {} (Lexeme.ofChars s.toList).1 with
  | ok r =>
    rw [h] at hrun
    exact hrun.finish _
  | error e =>
    rw [h] at hrun
    exact hrun _

end RouteProgramming.TextFormat
