import RouteProgramming.Proofs.TextFormat.Words

/-! Where the words of a text stand. Whatever the text, the scanner takes it apart
into gaps and words, up to the end or to the first thing that is no word, and the
line of a word is one more than the newlines before its first character. The
scanner stops in the midst of a word at every character, so the induction is on
the rest of the text and carries along what has been read of the word. -/

namespace RouteProgramming.TextFormat

/-! ### Texts in words -/

/-- A blank, or a comment with the end of its line. -/
inductive Gap : List Char → Prop
  | blank {c : Char} (hc : c ∈ [' ', '\t', '\r', '\n']) : Gap [c]
  | comment {text ending : List Char} (newline : '\n' ∉ text) (carriage : '\r' ∉ text)
    (hending : ending ∈ [['\n'], ['\r', '\n']]) : Gap ('#' :: (text ++ ending))

/-- What may stand behind the last word and its gaps: nothing, or a comment that ends with the text. -/
inductive Tail : List Char → Prop
  | nil : Tail []
  | comment {text : List Char} (newline : '\n' ∉ text) (carriage : '\r' ∉ text) : Tail ('#' :: text)

/-- A word, and how it is written. -/
inductive Spells : Token → List Char → Prop
  | name {w : List Char} (hw : IsName w) : Spells (.name (String.ofList w)) w
  | literal {text w : List Char} (hw : Literal text w) : Spells (.literal (String.ofList text)) w
  | colon : Spells .colon [':']
  | opening {c : Char} (hc : c ∈ ['\x7b', '<']) : Spells .opening [c]
  | closing {c : Char} (hc : c ∈ ['\x7d', '>']) : Spells .closing [c]

/-- Why a literal cannot go on into what follows. -/
inductive Breaks : LiteralFault → List Char → Prop
  | nothing : Breaks .unterminated []
  | newline {cs : List Char} : Breaks .unterminated ('\n' :: cs)
  | escape {cs : List Char} (hcs : ∀ e ∈ cs.head?, ∀ c, (c, e) ∉ escapes) : Breaks .badEscape ('\\' :: cs)

/-- What is neither a gap nor the beginning of a word. -/
inductive Strays : List Char → Prop
  | character {c : Char} {cs : List Char} (blank : c ∉ [' ', '\t', '\r', '\n']) (name : ¬Lexeme.isNameChar c)
    (mark : c ∉ ['#', '"', '\'', ':', '\x7b', '<', '\x7d', '>']) : Strays (c :: cs)
  | comment {text cs : List Char} (newline : '\n' ∉ text) (carriage : '\r' ∉ text) (hcs : cs.head? ≠ some '\n') :
    Strays ('#' :: (text ++ '\r' :: cs))

/-- The line on which a text goes on behind `cs`; the first line is 1. -/
def lineBehind (cs : List Char) : Nat := 1 + cs.count '\n'

/-- What is before a text, and the text in words: the words, each with its line, and the line of the end. A name is
taken as far as it goes, and nothing is read behind what is no word. -/
inductive Words : List Char → List Char → List Lexeme → Nat → Prop
  | done {before tail : List Char} (htail : Tail tail) : Words before tail [] (lineBehind before)
  | gap {before g cs : List Char} {xs : List Lexeme} {last : Nat} (hg : Gap g) (rest : Words (before ++ g) cs xs last) :
    Words before (g ++ cs) xs last
  | word {before w cs : List Char} {t : Token} {xs : List Lexeme} {last : Nat} (spells : Spells t w)
    (apart : ∀ n, t = .name n → Lexeme.Stops cs) (rest : Words (before ++ w) cs xs last) :
    Words before (w ++ cs) (⟨t, lineBehind before⟩ :: xs) last
  | broken {before text body cs : List Char} {quote : Char} {fault : LiteralFault} (hquote : quote ∈ ['"', '\''])
    (hbody : Body quote text body) (breaks : Breaks fault cs) :
    Words before (quote :: (body ++ cs)) [⟨.broken fault, lineBehind before⟩] (lineBehind before)
  | stray {before cs : List Char} (strays : Strays cs) :
    Words before cs [⟨.stray, lineBehind before⟩] (lineBehind before)

/-! ### Lines -/

theorem lineBehind_append {w : List Char} (hw : '\n' ∉ w) (before : List Char) :
    lineBehind (before ++ w) = lineBehind before := by
  rw [lineBehind, List.count_append, List.count_eq_zero_of_not_mem hw]
  rfl

theorem lineBehind_concat (before : List Char) (c : Char) :
    lineBehind (before ++ [c]) = lineBehind before + if c = '\n' then 1 else 0 := by
  simp [lineBehind, List.count_singleton, Nat.add_assoc]

theorem lineBehind_le {p cs : List Char} (h : p <+: cs) : lineBehind p ≤ lineBehind cs :=
  Nat.add_le_add_left (h.sublist.count_le _) 1

theorem Body.newline {quote : Char} {text body : List Char} (h : Body quote text body) : '\n' ∉ body := by
  induction h with
  | nil => exact List.not_mem_nil
  | plain quoted backslash newline rest ih => simp [Ne.symm newline, ih]
  | @escape c e text body he rest ih =>
    have hescape : '\n' ≠ e := by
      rintro rfl
      simp [escapes] at he
    simp [hescape, ih]

theorem Spells.newline {t : Token} {w : List Char} (h : Spells t w) : '\n' ∉ w := by
  cases h with
  | name hw =>
    intro hmem
    have hchar := (Lexeme.isName_iff.1 hw).2
    rw [List.all_eq_true] at hchar
    exact absurd (hchar _ hmem) (by decide)
  | literal hw =>
    cases hw with
    | quoted hquote body =>
      have hne : ∀ q ∈ ['"', '\''], '\n' ≠ q := by simp
      simp [hne _ hquote, body.newline]
  | colon => decide
  | opening hc => exact fun h => absurd (List.mem_singleton.1 h ▸ hc) (by decide)
  | closing hc => exact fun h => absurd (List.mem_singleton.1 h ▸ hc) (by decide)

theorem Body.append {quote : Char} {text text' body body' : List Char} (h : Body quote text body)
    (h' : Body quote text' body') : Body quote (text ++ text') (body ++ body') := by
  induction h with
  | nil => exact h'
  | plain quoted backslash newline rest ih => exact .plain quoted backslash newline ih
  | escape he rest ih => exact .escape he ih

namespace Lexeme

theorem mem_escapes_iff {c e : Char} : (c, e) ∈ escapes ↔ escaped? e = some c := by
  refine ⟨escaped?_of_mem, fun h => ?_⟩
  unfold escaped? at h
  split at h <;> cases h <;> decide

/-! ### In the midst of a word -/

/-- What has been read of what is being read, before the rest of the text. -/
inductive Pending : Mode → List Char → List Char → Prop
  | between {cs : List Char} : Pending .between [] cs
  | comment {text cs : List Char} (newline : '\n' ∉ text) (carriage : '\r' ∉ text) : Pending .comment ('#' :: text) cs
  | carriage {text cs : List Char} (newline : '\n' ∉ text) (carriage : '\r' ∉ text) :
    Pending .comment ('#' :: (text ++ ['\r'])) ('\n' :: cs)
  | name {w cs : List Char} (hw : IsName w) : Pending (.name w.reverse) w cs
  | literal {quote : Char} {text body cs : List Char} (hquote : quote ∈ ['"', '\'']) (hbody : Body quote text body) :
    Pending (.literal quote text.reverse) (quote :: body) cs
  | escape {quote : Char} {text body cs : List Char} (hquote : quote ∈ ['"', '\'']) (hbody : Body quote text body) :
    Pending (.escape quote text.reverse) (quote :: (body ++ ['\\'])) cs

/-- The scanner takes the rest of a text apart, whatever it is in the midst of. -/
def TakesApart (cs : List Char) : Prop :=
  ∀ {mode : Mode} {p : List Char}, Pending mode p cs → ∀ before : List Char,
    Words before (p ++ cs) (scan (lineBehind before) mode cs).1 (scan (lineBehind before) mode cs).2

theorem TakesApart.gap {cs g : List Char} (h : TakesApart cs) (hg : Gap g) (before : List Char) :
    Words before (g ++ cs) (scan (lineBehind (before ++ g)) .between cs).1
      (scan (lineBehind (before ++ g)) .between cs).2 :=
  .gap hg (h .between _)

theorem TakesApart.word {cs w : List Char} {t : Token} (h : TakesApart cs) (spells : Spells t w)
    (apart : ∀ n, t = .name n → Stops cs) (before : List Char) :
    Words before (w ++ cs) (⟨t, lineBehind before⟩ :: (scan (lineBehind before) .between cs).1)
      (scan (lineBehind before) .between cs).2 := by
  have hrest := h .between (before ++ w)
  rw [lineBehind_append spells.newline] at hrest
  exact .word spells apart hrest

theorem TakesApart.start {cs : List Char} (h : TakesApart cs) (c : Char) (before : List Char) :
    Words before (c :: cs) (scan.start (lineBehind before) c (scan · · cs)).1
      (scan.start (lineBehind before) c (scan · · cs)).2 := by
  by_cases hblank : isBlank c
  · rw [start_blank hblank, ← lineBehind_concat]
    exact h.gap (.blank (isBlank_iff.1 hblank)) before
  by_cases hname : isNameChar c
  · rw [start_name hname]
    have hw : IsName [c] := isName_iff.2 ⟨List.cons_ne_nil _ _, by simpa using hname⟩
    exact h (.name hw) before
  have hnewline : c ≠ '\n' := fun hc => hblank (by rw [hc]; rfl)
  unfold scan.start
  rw [if_neg hnewline, if_neg hblank, if_neg hname]
  split
  · exact h (.comment List.not_mem_nil List.not_mem_nil) before
  · have hliteral : Pending (.literal '"' [].reverse) ['"'] cs := .literal (by decide) .nil
    exact h hliteral before
  · have hliteral : Pending (.literal '\'' [].reverse) ['\''] cs := .literal (by decide) .nil
    exact h hliteral before
  · exact h.word .colon nofun before
  · exact h.word (.opening (by decide)) nofun before
  · exact h.word (.opening (by decide)) nofun before
  · exact h.word (.closing (by decide)) nofun before
  · exact h.word (.closing (by decide)) nofun before
  · refine .stray (.character (fun hmem => hblank (isBlank_iff.2 hmem)) hname ?_)
    simp only [List.mem_cons, List.not_mem_nil, or_false]
    grind

/-- A literal that what follows breaks. -/
theorem words_broken {before text body cs w : List Char} {quote : Char} {fault : LiteralFault}
    (hquote : quote ∈ ['"', '\'']) (hbody : Body quote text body) (breaks : Breaks fault cs)
    (hw : w = quote :: (body ++ cs)) :
    Words before w [⟨.broken fault, lineBehind before⟩] (lineBehind before) := by
  rw [hw]
  exact .broken hquote hbody breaks

theorem takesApart_nil : TakesApart [] := by
  intro mode p hp before
  cases hp with
  | between =>
    rw [scan]
    exact .done .nil
  | comment newline carriage =>
    rw [scan, List.append_nil]
    exact .done (.comment newline carriage)
  | name hw =>
    rw [scan, List.reverse_reverse]
    have hdone : Words (before ++ p) [] [] (lineBehind (before ++ p)) := .done .nil
    rw [lineBehind_append (Spells.name hw).newline] at hdone
    exact .word (.name hw) (fun _ _ => stops_nil) hdone
  | literal hquote hbody =>
    rw [scan]
    exact .broken hquote hbody .nothing
  | @escape quote text body _ hquote hbody =>
    rw [scan]
    have hbreaks : Breaks .badEscape ['\\'] := .escape (by simp)
    exact words_broken hquote hbody hbreaks (by simp)

/-- A comment up to its newline. -/
theorem TakesApart.comment_newline {cs text ending : List Char} (h : TakesApart cs) (newline : '\n' ∉ text)
    (carriage : '\r' ∉ text) (hending : ending ∈ [[], ['\r']]) (before : List Char) :
    Words before ('#' :: (text ++ ending) ++ '\n' :: cs) (scan (lineBehind before) .comment ('\n' :: cs)).1
      (scan (lineBehind before) .comment ('\n' :: cs)).2 := by
  have hgap : Gap ('#' :: (text ++ (ending ++ ['\n']))) := by
    refine .comment newline carriage ?_
    simp only [List.mem_cons, List.not_mem_nil, or_false] at hending
    rcases hending with rfl | rfl <;> decide
  have hline : lineBehind (before ++ '#' :: (text ++ (ending ++ ['\n']))) = lineBehind before + 1 := by
    have hclean : '\n' ∉ '#' :: (text ++ ending) := by
      simp only [List.mem_cons, List.not_mem_nil, or_false] at hending
      rcases hending with rfl | rfl <;> simp [newline]
    have hlast := lineBehind_concat (before ++ '#' :: (text ++ ending)) '\n'
    rw [lineBehind_append hclean] at hlast
    simpa using hlast
  have hwords := h.gap hgap before
  rw [hline] at hwords
  rw [scan, if_pos rfl]
  simpa using hwords

theorem TakesApart.comment {cs text : List Char} (h : TakesApart cs) (c : Char) (newline : '\n' ∉ text)
    (carriage : '\r' ∉ text) (before : List Char) :
    Words before ('#' :: text ++ c :: cs) (scan (lineBehind before) .comment (c :: cs)).1
      (scan (lineBehind before) .comment (c :: cs)).2 := by
  by_cases hnewline : c = '\n'
  · subst hnewline
    have hnothing : [] ∈ [[], ['\r']] := List.mem_cons_self
    simpa using h.comment_newline newline carriage hnothing before
  rw [scan, if_neg hnewline]
  by_cases hcarriage : c = '\r'
  · subst hcarriage
    split
    case isTrue hstray =>
      exact .stray (.comment newline carriage hstray.2)
    case isFalse hending =>
      have hhead : cs.head? = some '\n' := by simpa using hending
      obtain ⟨cs, rfl⟩ := List.head?_eq_some_iff.1 hhead
      have hwords := h (.carriage newline carriage) before
      simpa using hwords
  · rw [if_neg (fun hc => hcarriage hc.1)]
    have hmore : Pending .comment ('#' :: (text ++ [c])) cs :=
      .comment (by simp [newline, Ne.symm hnewline]) (by simp [carriage, Ne.symm hcarriage])
    simpa using h hmore before

theorem TakesApart.literal {cs text body : List Char} {quote : Char} (h : TakesApart cs) (c : Char)
    (hquote : quote ∈ ['"', '\'']) (hbody : Body quote text body) (before : List Char) :
    Words before (quote :: body ++ c :: cs) (scan (lineBehind before) (.literal quote text.reverse) (c :: cs)).1
      (scan (lineBehind before) (.literal quote text.reverse) (c :: cs)).2 := by
  rw [scan]
  by_cases hend : c = quote
  · subst hend
    rw [if_pos rfl, List.reverse_reverse]
    have hwords := h.word (.literal (.quoted hquote hbody)) (by simp) before
    simpa using hwords
  rw [if_neg hend]
  by_cases hnewline : c = '\n'
  · subst hnewline
    rw [if_pos rfl]
    exact .broken hquote hbody .newline
  rw [if_neg hnewline]
  by_cases hbackslash : c = '\\'
  · subst hbackslash
    rw [if_pos rfl]
    simpa using h (.escape hquote hbody) before
  · rw [if_neg hbackslash]
    have hmore : Body quote (text ++ [c]) (body ++ [c]) := hbody.append (.plain hend hbackslash hnewline .nil)
    simpa using h (.literal hquote hmore) before

theorem TakesApart.escape {cs text body : List Char} {quote : Char} (h : TakesApart cs) (e : Char)
    (hquote : quote ∈ ['"', '\'']) (hbody : Body quote text body) (before : List Char) :
    Words before (quote :: (body ++ ['\\']) ++ e :: cs)
      (scan (lineBehind before) (.escape quote text.reverse) (e :: cs)).1
      (scan (lineBehind before) (.escape quote text.reverse) (e :: cs)).2 := by
  rw [scan]
  cases he : escaped? e with
  | none =>
    have hbreaks : Breaks .badEscape ('\\' :: e :: cs) := by
      refine .escape fun d hd c hc => ?_
      cases hd
      rw [mem_escapes_iff, he] at hc
      cases hc
    exact words_broken hquote hbody hbreaks (by simp)
  | some c =>
    have hmore : Body quote (text ++ [c]) (body ++ ['\\', e]) := hbody.append (.escape (mem_escapes_iff.2 he) .nil)
    simpa using h (.literal hquote hmore) before

theorem TakesApart.cons {cs : List Char} (h : TakesApart cs) (c : Char) : TakesApart (c :: cs) := by
  intro mode p hp before
  cases hp with
  | between =>
    rw [List.nil_append, scan_between]
    exact h.start c before
  | comment newline carriage => exact h.comment c newline carriage before
  | carriage newline carriage => exact h.comment_newline newline carriage (by decide) before
  | name hw =>
    rw [scan]
    by_cases hc : isNameChar c
    · have hmore : IsName (p ++ [c]) := by
        rw [isName_iff] at hw ⊢
        simpa [hc] using hw.2
      rw [if_pos hc]
      simpa using h (.name hmore) before
    · have hrest := h.start c (before ++ p)
      rw [lineBehind_append (Spells.name hw).newline] at hrest
      rw [if_neg hc, List.reverse_reverse]
      exact .word (.name hw) (fun _ _ => stops_cons hc) hrest
  | literal hquote hbody => exact h.literal c hquote hbody before
  | escape hquote hbody => exact h.escape c hquote hbody before

theorem takesApart (cs : List Char) : TakesApart cs := by
  induction cs with
  | nil => exact takesApart_nil
  | cons c cs ih => exact ih.cons c

/-- Every text is scanned in words. -/
theorem words_ofChars (cs : List Char) : Words [] cs (ofChars cs).1 (ofChars cs).2 := takesApart cs .between []

end Lexeme

/-! ### Lines of words -/

namespace Words

variable {before cs : List Char} {xs : List Lexeme} {last : Nat}

/-- The lines of the words, and that of the end, are those behind beginnings of the text. -/
theorem exists_prefix (h : Words before cs xs last) :
    ∀ l ∈ xs.map Lexeme.line ++ [last], ∃ p, p <+: cs ∧ l = lineBehind (before ++ p) := by
  have hhere {before cs : List Char} : ∃ p, p <+: cs ∧ lineBehind before = lineBehind (before ++ p) :=
    ⟨[], List.nil_prefix, by rw [List.append_nil]⟩
  have hlater {before w cs : List Char} {l : Nat} (h : ∃ p, p <+: cs ∧ l = lineBehind (before ++ w ++ p)) :
      ∃ p, p <+: w ++ cs ∧ l = lineBehind (before ++ p) := by
    obtain ⟨p, hp, hl⟩ := h
    exact ⟨w ++ p, List.prefix_append_right_inj w |>.2 hp, by rw [hl, List.append_assoc]⟩
  induction h with
  | done htail => simpa using hhere
  | gap hg rest ih => exact fun l hl => hlater (ih l hl)
  | word spells apart rest ih =>
    intro l hl
    rcases List.mem_cons.1 hl with rfl | hl
    · exact hhere
    · exact hlater (ih l hl)
  | broken hquote hbody breaks => simpa using hhere
  | stray strays => simpa using hhere

/-- Later words are on later lines or the same. -/
theorem lines_sorted (h : Words before cs xs last) : (xs.map Lexeme.line).Pairwise (· ≤ ·) := by
  induction h with
  | done htail => exact .nil
  | gap hg rest ih => exact ih
  | @word before w cs t xs last spells apart rest ih =>
    refine List.pairwise_cons.2 ⟨fun l hl => ?_, ih⟩
    obtain ⟨p, -, rfl⟩ := rest.exists_prefix l (List.mem_append_left _ hl)
    exact lineBehind_le ⟨w ++ p, by simp⟩
  | broken hquote hbody breaks => exact List.pairwise_singleton _ _
  | stray strays => exact List.pairwise_singleton _ _

end Words

end RouteProgramming.TextFormat
