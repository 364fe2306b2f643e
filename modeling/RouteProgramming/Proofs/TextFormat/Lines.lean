import RouteProgramming.Proofs.TextFormat.Phrases

/-! The lines of messages. A field, at whatever depth, is on the line on which its name
begins, and the fields of a message are on later and later lines. An error is on a line
of the text. -/

namespace RouteProgramming.TextFormat

/-! ### Fields at every depth -/

mutual

/-- The fields of a value at every depth, in the order of the text. -/
def Value.allFields : Value → List (Field Value)
  | .scalar _ _ => []
  | .message fields => Message.allFields fields

def Message.allFields : List (Field Value) → List (Field Value)
  | [] => []
  | f :: fs => f.withInner ++ Message.allFields fs

def Field.withInner : Field Value → List (Field Value)
  | ⟨name, value, line⟩ => ⟨name, value, line⟩ :: value.allFields

end

theorem Field.withInner_eq (f : Field Value) : f.withInner = f :: f.value.allFields := by
  obtain ⟨name, value, line⟩ := f
  rw [Field.withInner]

namespace Message

variable {m : Message} {f g : Field Value}

theorem mem_allFields_of_withInner (hf : f ∈ m) (hg : g ∈ f.withInner) : g ∈ allFields m := by
  induction m with
  | nil => cases hf
  | cons e m ih =>
    rw [allFields]
    rcases List.mem_cons.1 hf with rfl | hf
    · exact List.mem_append_left _ hg
    · exact List.mem_append_right _ (ih hf)

theorem mem_allFields (h : f ∈ m) : f ∈ allFields m :=
  mem_allFields_of_withInner h (f.withInner_eq ▸ List.mem_cons_self)

/-- A field of a message that is the value of a field. -/
theorem mem_allFields_of_value {fields : Message} (hf : f ∈ m) (hvalue : f.value = .message fields) (hg : g ∈ fields) :
    g ∈ allFields m := by
  refine mem_allFields_of_withInner hf ?_
  rw [f.withInner_eq, hvalue]
  exact List.mem_cons_of_mem _ (mem_allFields hg)

end Message

/-- The name of a field, as a word of the text. -/
def Field.word (f : Field Value) : Lexeme := ⟨.name f.name, f.line⟩

/-- The names of the fields are words of the text, in their order. -/
theorem Phrased.names {xs : List Lexeme} {fields : Message} (h : Phrased xs fields) :
    ((Message.allFields fields).map Field.word).Sublist xs := by
  induction h with
  | nil => exact .slnil
  | word rest ih => exact ((ih.cons _).cons _).cons_cons _
  | quoted joined rest ih => exact ((ih.trans (List.sublist_append_right _ _)).cons _).cons_cons _
  | message hcolon body rest ihbody ih =>
    rw [Message.allFields, Field.withInner, List.map_append, List.map_cons, List.cons_append]
    refine .cons_cons _ (.trans ?_ (List.sublist_append_right _ _))
    exact .cons _ (ihbody.append (ih.cons _))

/-- A name stands on its line. -/
theorem Words.exists_name {before cs : List Char} {xs : List Lexeme} {last : Nat} (h : Words before cs xs last)
    {n : String} {l : Nat} (hx : ⟨.name n, l⟩ ∈ xs) : ∃ p, p ++ n.toList <+: cs ∧ l = lineBehind (before ++ p) := by
  have hlater {before w cs : List Char} (h : ∃ p, p ++ n.toList <+: cs ∧ l = lineBehind (before ++ w ++ p)) :
      ∃ p, p ++ n.toList <+: w ++ cs ∧ l = lineBehind (before ++ p) := by
    obtain ⟨p, hp, hl⟩ := h
    refine ⟨w ++ p, ?_, by rw [hl, List.append_assoc]⟩
    rw [List.append_assoc]
    exact (List.prefix_append_right_inj w).2 hp
  induction h with
  | done htail => cases hx
  | gap hg rest ih => exact hlater (ih hx)
  | @word before w cs t xs last spells apart rest ih =>
    rcases List.mem_cons.1 hx with heq | hx
    · cases heq
      cases spells
      exact ⟨[], by simp, by rw [List.append_nil]⟩
    · exact hlater (ih hx)
  | broken hquote hbody breaks => simp at hx
  | stray strays => simp at hx

/-! ### Lines of errors -/

theorem Fails.line_mem {xs : List Lexeme} {last : Nat} {e : TextError} (h : Fails xs last e) :
    e.line ∈ xs.map Lexeme.line ++ [last] := by
  cases h <;> simp

/-- What the error of a text may be. What a part of the reader says that knows no more is not among it. -/
theorem Fails.fault_cases {xs : List Lexeme} {last : Nat} {e : TextError} (h : Fails xs last e) :
    e.fault ∈ [.unterminatedString, .badEscape, .missingClosing, .expectedName] ∨
      ∃ field, e.fault = .expectedValue field := by
  cases h with
  | @literal _ _ _ _ _ _ _ _ _ _ fault => cases fault <;> exact .inl (by simp [TextFault.ofLiteral])
  | name | unclosed => exact .inl (by simp)
  | value | colon | valueless => exact .inr ⟨_, rfl⟩

theorem Fails.message_cases {xs : List Lexeme} {last : Nat} {e : TextError} (h : Fails xs last e) :
    e.fault.message ∈ ["unterminated string", "unsupported escape sequence", "missing closing brace",
      "expected field name"] ∨ ∃ field, e.fault.message = "expected value for field " ++ field := by
  rcases h.fault_cases with hmem | ⟨field, hfield⟩
  · exact .inl (List.mem_map_of_mem (f := TextFault.message) hmem)
  · refine .inr ⟨field, ?_⟩
    rw [hfield]
    rfl

/-- A field is on the line on which its name begins. -/
theorem line_of_parse {s : String} {m : Message} (h : Message.parse s = .ok m) {f : Field Value}
    (hf : f ∈ Message.allFields m) : ∃ p, p ++ f.name.toList <+: s.toList ∧ f.line = lineBehind p := by
  obtain ⟨xs, last, hwords, hparse⟩ := parse_words s
  rw [h] at hparse
  exact hwords.exists_name (hparse.names.subset (List.mem_map_of_mem hf))

theorem line_of_parse_error {s : String} {e : TextError} (h : Message.parse s = .error e) :
    ∃ p, p <+: s.toList ∧ e.line = lineBehind p := by
  obtain ⟨xs, last, hwords, hparse⟩ := parse_words s
  rw [h] at hparse
  obtain ⟨p, hp, hline⟩ := hwords.exists_prefix e.line hparse.line_mem
  exact ⟨p, hp, hline⟩

theorem one_le_lineBehind (cs : List Char) : 1 ≤ lineBehind cs := Nat.le_add_right 1 _

/-- A text is gaps and words. If it is read, they are the words of its message: every field is on the line on which
its name begins, and later fields are on later lines or the same. If not, its error is that of the first word that
cannot follow those before it, or of the end, and is on that line, which is a line of the text. -/
theorem lines_located (s : String) : ∃ xs last, Words [] s.toList xs last ∧
    (∀ m, Message.parse s = .ok m → Phrased xs m ∧
      (∀ f ∈ Message.allFields m, ∃ p, p ++ f.name.toList <+: s.toList ∧ f.line = lineBehind p) ∧
      ((Message.allFields m).map (·.line)).Pairwise (· ≤ ·)) ∧
    ∀ e, Message.parse s = .error e → Fails xs last e ∧
      (∃ p, p <+: s.toList ∧ e.line = lineBehind p) ∧ 1 ≤ e.line ∧ e.line ≤ lineBehind s.toList ∧
      (e.fault.message ∈ ["unterminated string", "unsupported escape sequence", "missing closing brace",
        "expected field name"] ∨ ∃ field, e.fault.message = "expected value for field " ++ field) := by
  obtain ⟨xs, last, hwords, hparse⟩ := parse_words s
  refine ⟨xs, last, hwords, fun m hm => ?_, fun e he => ?_⟩
  · rw [hm] at hparse
    have hsorted := hwords.lines_sorted.sublist (hparse.names.map Lexeme.line)
    rw [List.map_map] at hsorted
    exact ⟨hparse, fun f hf => line_of_parse hm hf, hsorted⟩
  · rw [he] at hparse
    obtain ⟨p, hp, hline⟩ := line_of_parse_error he
    refine ⟨hparse, ⟨p, hp, hline⟩, ?_, ?_, hparse.message_cases⟩
    · rw [hline]
      exact one_le_lineBehind p
    · rw [hline]
      exact lineBehind_le hp

/-- A message over several lines, with a comment and a message in it; and a text whose second line breaks off. -/
theorem lines_located_nested :
    (∃ m, Message.parse "# it\nid \x7b\n name:\n 'x'\n>" = .ok m ∧ (Message.allFields m).map (·.line) = [2, 3] ∧
      ((Message.allFields m).map (·.line)).Pairwise (· ≤ ·)) ∧
    Message.parse "a: 1\nb: \"open\n" = .error ⟨2, .unterminatedString⟩ ∧
    ∃ p, p <+: "a: 1\nb: \"open\n".toList ∧ 2 = lineBehind p := by
  have hread : Message.parse "# it\nid \x7b\n name:\n 'x'\n>" =
      .ok [⟨"id", .message [⟨"name", .scalar "x" true, 3⟩], 2⟩] := rfl
  have hfailed : Message.parse "a: 1\nb: \"open\n" = .error ⟨2, .unterminatedString⟩ := rfl
  obtain ⟨_, _, _, hok, -⟩ := lines_located "# it\nid \x7b\n name:\n 'x'\n>"
  obtain ⟨_, _, _, -, herror⟩ := lines_located "a: 1\nb: \"open\n"
  exact ⟨⟨_, hread, rfl, (hok _ hread).2.2⟩, hfailed, (herror _ hfailed).2.1⟩

end RouteProgramming.TextFormat
