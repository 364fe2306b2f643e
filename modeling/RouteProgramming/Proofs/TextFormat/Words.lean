import RouteProgramming.TextFormat.Lexeme

/-! How words are written. Between words stand blanks, and comments that end with
their lines; a name is a run of name characters; a literal is its text between
two quotes, with the quote, the backslash and the newline escaped. Each is
described here without the scanner, and the scanner reads it as one word, or as
nothing, and goes on behind it. -/

namespace RouteProgramming.TextFormat

/-! ### Writing words -/

/-- Blanks and whole comments. -/
inductive Blanks : List Char → Prop
  | nil : Blanks []
  | blank {c : Char} {cs : List Char} (hc : c ∈ [' ', '\t', '\r', '\n']) (rest : Blanks cs) : Blanks (c :: cs)
  | comment {text cs : List Char} (newline : '\n' ∉ text) (carriage : '\r' ∉ text) (rest : Blanks cs) :
    Blanks ('#' :: (text ++ '\n' :: cs))

/-- The characters of a name or a bare word; there is at least one. -/
structure IsName (cs : List Char) : Prop where
  nonempty : cs ≠ []
  chars : ∀ c ∈ cs, c.isAlphanum ∨ c ∈ ['_', '.', '-', '+']

/-- Characters with the letters that stand for them after a backslash. -/
def escapes : List (Char × Char) := [('\n', 'n'), ('\t', 't'), ('\\', '\\'), ('"', '"'), ('\'', '\'')]

/-- A text, and how it is written between quotes. -/
inductive Body (quote : Char) : List Char → List Char → Prop
  | nil : Body quote [] []
  | plain {c : Char} {text cs : List Char} (quoted : c ≠ quote) (backslash : c ≠ '\\') (newline : c ≠ '\n')
    (rest : Body quote text cs) : Body quote (c :: text) (c :: cs)
  | escape {c e : Char} {text cs : List Char} (he : (c, e) ∈ escapes) (rest : Body quote text cs) :
    Body quote (c :: text) ('\\' :: e :: cs)

/-- A text, and a literal of it. -/
inductive Literal : List Char → List Char → Prop
  | quoted {quote : Char} {text cs : List Char} (hquote : quote ∈ ['"', '\'']) (body : Body quote text cs) :
    Literal text (quote :: (cs ++ [quote]))

/-! ### Characters -/

namespace Lexeme

theorem isNameChar_iff {c : Char} : isNameChar c ↔ c.isAlphanum ∨ c ∈ ['_', '.', '-', '+'] := by
  simp [isNameChar, or_assoc]

theorem isName_iff {cs : List Char} : IsName cs ↔ cs ≠ [] ∧ cs.all isNameChar := by
  simp only [List.all_eq_true, isNameChar_iff]
  exact ⟨fun h => ⟨h.nonempty, h.chars⟩, fun h => ⟨h.1, h.2⟩⟩

theorem isBlank_iff {c : Char} : isBlank c ↔ c ∈ [' ', '\t', '\r', '\n'] := by
  simp [isBlank, or_assoc]

theorem not_isNameChar_of_isBlank {c : Char} (hc : isBlank c) : ¬isNameChar c := by
  have hmem := isBlank_iff.1 hc
  simp only [List.mem_cons, List.not_mem_nil, or_false] at hmem
  rcases hmem with rfl | rfl | rfl | rfl <;> decide

theorem not_isNameChar_of_bracket {c : Char} (hc : c ∈ ['\x7b', '<'] ∨ c ∈ ['\x7d', '>']) : ¬isNameChar c := by
  simp only [List.mem_cons, List.not_mem_nil, or_false] at hc
  rcases hc with (rfl | rfl) | (rfl | rfl) <;> decide

theorem escaped?_of_mem {c e : Char} (he : (c, e) ∈ escapes) : escaped? e = some c := by
  simp only [escapes, List.mem_cons, Prod.mk.injEq, List.not_mem_nil, or_false] at he
  rcases he with ⟨rfl, rfl⟩ | ⟨rfl, rfl⟩ | ⟨rfl, rfl⟩ | ⟨rfl, rfl⟩ | ⟨rfl, rfl⟩ <;> rfl

/-- No name goes on into what follows. -/
def Stops (cs : List Char) : Prop := ∀ c ∈ cs.head?, ¬isNameChar c

theorem stops_nil : Stops [] := nofun

theorem stops_cons {c : Char} {cs : List Char} (hc : ¬isNameChar c) : Stops (c :: cs) := by
  rintro d hd
  cases hd
  exact hc

theorem stops_blanks {b cs : List Char} (hb : Blanks b) (stop : b = [] → Stops cs) : Stops (b ++ cs) := by
  cases hb with
  | nil => exact stop rfl
  | blank hc rest => exact stops_cons (not_isNameChar_of_isBlank (isBlank_iff.2 hc))
  | comment newline carriage rest => exact stops_cons (by decide)

/-! ### Scanning words -/

/-- A word before what is scanned next. -/
def before (x : Lexeme) (out : List Lexeme × Nat) : List Lexeme × Nat := (x :: out.1, out.2)

theorem scan_between (line : Nat) (c : Char) (cs : List Char) :
    scan line .between (c :: cs) = scan.start line c (scan · · cs) := by rw [scan]

theorem start_blank {c : Char} {go : Nat → Mode → List Lexeme × Nat} (hc : isBlank c) (line : Nat) :
    scan.start line c go = go (line + if c = '\n' then 1 else 0) .between := by
  unfold scan.start
  by_cases hnewline : c = '\n'
  · rw [if_pos hnewline, if_pos hnewline]
  · rw [if_neg hnewline, if_pos hc, if_neg hnewline]
    rfl

theorem start_name {c : Char} {go : Nat → Mode → List Lexeme × Nat} (hc : isNameChar c) (line : Nat) :
    scan.start line c go = go line (.name [c]) := by
  have hblank : ¬isBlank c := fun h => not_isNameChar_of_isBlank h hc
  have hnewline : c ≠ '\n' := fun h => hblank (by rw [h]; rfl)
  unfold scan.start
  rw [if_neg hnewline, if_neg hblank, if_pos hc]

theorem scan_comment {text : List Char} (newline : '\n' ∉ text) (carriage : '\r' ∉ text) (line : Nat) (cs : List Char) :
    scan line .comment (text ++ '\n' :: cs) = scan (line + 1) .between cs := by
  induction text with
  | nil => rw [List.nil_append, scan, if_pos rfl]
  | cons c text ih =>
    simp only [List.mem_cons, not_or] at newline carriage
    rw [List.cons_append, scan, if_neg (Ne.symm newline.1), if_neg (fun h => carriage.1 h.1.symm),
      ih newline.2 carriage.2]

theorem scan_blanks {b : List Char} (hb : Blanks b) (line : Nat) (cs : List Char) :
    scan line .between (b ++ cs) = scan (line + b.count '\n') .between cs := by
  induction hb generalizing line with
  | nil => rfl
  | @blank c b hc rest ih =>
    rw [List.cons_append, scan_between, List.count_cons]
    rw [start_blank (isBlank_iff.2 hc), ih]
    congr 1
    simp only [beq_iff_eq]
    omega
  | @comment text b newline carriage rest ih =>
    have hstart : scan line .between ('#' :: (text ++ '\n' :: (b ++ cs))) =
        scan line .comment (text ++ '\n' :: (b ++ cs)) := by
      rw [scan_between]
      rfl
    have hcount : ('#' :: (text ++ '\n' :: b)).count '\n' = b.count '\n' + 1 := by
      simp [List.count_eq_zero_of_not_mem newline]
    rw [List.cons_append, List.append_assoc, List.cons_append, hstart, scan_comment newline carriage, ih, hcount]
    congr 1
    omega

/-- A run of name characters is read to its end. -/
theorem scan_name_mode {n cs : List Char} (hn : ∀ c ∈ n, isNameChar c) (stop : Stops cs)
    (line : Nat) (done : List Char) : scan line (.name done) (n ++ cs) =
      before ⟨.name (String.ofList (done.reverse ++ n)), line⟩ (scan line .between cs) := by
  induction n generalizing done with
  | nil =>
    rw [List.nil_append, List.append_nil]
    cases cs with
    | nil => rw [scan, scan]; rfl
    | cons c cs =>
      rw [scan_between, scan, if_neg (stop c rfl)]
      rfl
  | cons c n ih =>
    rw [List.cons_append, scan, if_pos (hn c List.mem_cons_self), ih fun d hd => hn d (List.mem_cons_of_mem _ hd),
      List.reverse_cons, List.append_assoc, List.singleton_append]

theorem scan_name {n cs : List Char} (hn : IsName n) (stop : Stops cs) (line : Nat) :
    scan line .between (n ++ cs) = before ⟨.name (String.ofList n), line⟩ (scan line .between cs) := by
  obtain ⟨hne, hall⟩ := isName_iff.1 hn
  cases n with
  | nil => contradiction
  | cons c n =>
    rw [List.all_cons, Bool.and_eq_true, List.all_eq_true] at hall
    rw [List.cons_append, scan_between, start_name hall.1, scan_name_mode hall.2 stop]
    rfl

theorem scan_body {quote : Char} {text w : List Char} (hbody : Body quote text w) (hquote : quote ≠ '\\')
    (line : Nat) (done cs : List Char) : scan line (.literal quote done) (w ++ quote :: cs) =
      before ⟨.literal (String.ofList (done.reverse ++ text)), line⟩ (scan line .between cs) := by
  induction hbody generalizing done with
  | nil =>
    rw [List.nil_append, List.append_nil, scan, if_pos rfl]
    rfl
  | plain quoted backslash newline rest ih =>
    rw [List.cons_append, scan, if_neg quoted, if_neg newline, if_neg backslash, ih, List.reverse_cons,
      List.append_assoc, List.singleton_append]
  | escape he rest ih =>
    rw [List.cons_append, List.cons_append, scan, if_neg (Ne.symm hquote), if_neg (by decide), if_pos rfl, scan,
      escaped?_of_mem he]
    dsimp only
    rw [ih, List.reverse_cons, List.append_assoc, List.singleton_append]

theorem scan_literal {text w : List Char} (hw : Literal text w) (line : Nat) (cs : List Char) :
    scan line .between (w ++ cs) = before ⟨.literal (String.ofList text), line⟩ (scan line .between cs) := by
  cases hw with
  | @quoted quote text w hquote body =>
    simp only [List.mem_cons, List.not_mem_nil, or_false] at hquote
    have hmode : scan line .between (quote :: (w ++ quote :: cs)) = scan line (.literal quote []) (w ++ quote :: cs) := by
      rw [scan_between]
      rcases hquote with rfl | rfl <;> rfl
    have hne : quote ≠ '\\' := by rcases hquote with rfl | rfl <;> decide
    rw [List.cons_append, List.append_assoc, List.singleton_append, hmode, scan_body body hne]
    rfl

theorem scan_colon (line : Nat) (cs : List Char) :
    scan line .between (':' :: cs) = before ⟨.colon, line⟩ (scan line .between cs) := by
  rw [scan_between]
  rfl

theorem scan_opening {c : Char} (hc : c ∈ ['\x7b', '<']) (line : Nat) (cs : List Char) :
    scan line .between (c :: cs) = before ⟨.opening, line⟩ (scan line .between cs) := by
  rw [scan_between]
  simp only [List.mem_cons, List.not_mem_nil, or_false] at hc
  rcases hc with rfl | rfl <;> rfl

theorem scan_closing {c : Char} (hc : c ∈ ['\x7d', '>']) (line : Nat) (cs : List Char) :
    scan line .between (c :: cs) = before ⟨.closing, line⟩ (scan line .between cs) := by
  rw [scan_between]
  simp only [List.mem_cons, List.not_mem_nil, or_false] at hc
  rcases hc with rfl | rfl <;> rfl

end Lexeme

end RouteProgramming.TextFormat
