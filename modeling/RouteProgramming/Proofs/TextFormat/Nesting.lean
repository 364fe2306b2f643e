import RouteProgramming.Proofs.TextFormat.Phrases
import RouteProgramming.Proofs.TextFormat.Renderings

/-! How brackets nest. The brackets of a text that is read, those in literals and
comments left out, are balanced: each opening bracket has its closing bracket. But
the reader does not tell braces from angle brackets: texts that differ only in the
kinds of their brackets are read alike, so a message that has a message in it can be
written with a brace at one end and an angle bracket at the other. -/

namespace RouteProgramming.TextFormat

/-! ### Brackets of texts -/

/-- What a character of a text stands in. -/
inductive Region where
  | plain
  | comment
  | literal (quote : Char)
  | escape (quote : Char)
deriving DecidableEq

namespace Region

/-- What the next character stands in. -/
def next : Region → Char → Region
  | .plain, c => if c = '#' then .comment else if c ∈ ['"', '\''] then .literal c else .plain
  | .comment, c => if c = '\n' then .plain else .comment
  | .literal quote, c => if c = quote then .plain else if c = '\\' then .escape quote else .literal quote
  | .escape quote, _ => .literal quote

theorem next_blank {c : Char} (hc : Lexeme.isBlank c) : Region.plain.next c = .plain := by
  have hmem := Lexeme.isBlank_iff.1 hc
  simp only [List.mem_cons, List.not_mem_nil, or_false] at hmem
  rcases hmem with rfl | rfl | rfl | rfl <;> rfl

theorem next_name {c : Char} (hc : Lexeme.isNameChar c) : Region.plain.next c = .plain := by
  have hmark : c ∉ ['#', '"', '\''] := by
    simp only [List.mem_cons, List.not_mem_nil, or_false]
    rintro (rfl | rfl | rfl) <;> exact absurd hc (by decide)
  simp only [List.mem_cons, List.not_mem_nil, or_false, not_or] at hmark
  simp [next, hmark]

end Region

def openings : List Char := ['\x7b', '<']

def closings : List Char := ['\x7d', '>']

theorem mem_openings_iff {c : Char} : c ∈ openings ↔ c = '\x7b' ∨ c = '<' := by simp [openings]

theorem mem_closings_iff {c : Char} : c ∈ closings ↔ c = '\x7d' ∨ c = '>' := by simp [closings]

theorem mem_brackets_iff {c : Char} : c ∈ openings ++ closings ↔ (c = '\x7b' ∨ c = '<') ∨ c = '\x7d' ∨ c = '>' := by
  rw [List.mem_append, mem_openings_iff, mem_closings_iff]

/-- The brackets of a text outside its literals and comments. -/
def bracketing : Region → List Char → List Char
  | _, [] => []
  | g, c :: cs =>
    if g = .plain ∧ c ∈ openings ++ closings then c :: bracketing (g.next c) cs else bracketing (g.next c) cs

/-- Brackets in pairs, one inside the other or side by side. -/
inductive Nested (pairs : List (Char × Char)) : List Char → Prop
  | nil : Nested pairs []
  | wrap {o c : Char} {inner rest : List Char} (pair : (o, c) ∈ pairs) (hinner : Nested pairs inner)
    (hrest : Nested pairs rest) : Nested pairs (o :: (inner ++ c :: rest))

/-- An opening bracket and a closing bracket, of one kind or of two. -/
def mixedBrackets : List (Char × Char) := brackets ++ [('\x7b', '>'), ('<', '\x7d')]

/-- Texts that differ at most in the kinds of their brackets outside literals and comments. -/
inductive Rebracketed : Region → List Char → List Char → Prop
  | nil {g : Region} : Rebracketed g [] []
  | same {g : Region} {c : Char} {cs ds : List Char} (rest : Rebracketed (g.next c) cs ds) :
    Rebracketed g (c :: cs) (c :: ds)
  | opening {c d : Char} {cs ds : List Char} (hc : c ∈ openings) (hd : d ∈ openings) (rest : Rebracketed .plain cs ds) :
    Rebracketed .plain (c :: cs) (d :: ds)
  | closing {c d : Char} {cs ds : List Char} (hc : c ∈ closings) (hd : d ∈ closings) (rest : Rebracketed .plain cs ds) :
    Rebracketed .plain (c :: cs) (d :: ds)

/-! ### Brackets of words -/

theorem bracketing_comment {text : List Char} (newline : '\n' ∉ text) (cs : List Char) :
    bracketing .comment (text ++ cs) = bracketing .comment cs := by
  induction text with
  | nil => rfl
  | cons c text ih =>
    simp only [List.mem_cons, not_or] at newline
    rw [List.cons_append, bracketing, if_neg (by simp), Region.next, if_neg (Ne.symm newline.1), ih newline.2]

theorem bracketing_gap {g : List Char} (hg : Gap g) (cs : List Char) :
    bracketing .plain (g ++ cs) = bracketing .plain cs := by
  cases hg with
  | @blank c hc =>
    simp only [List.mem_cons, List.not_mem_nil, or_false] at hc
    rcases hc with rfl | rfl | rfl | rfl <;> rfl
  | @comment text ending newline carriage hending =>
    have hcomment :
        bracketing .plain ('#' :: (text ++ ending) ++ cs) = bracketing .comment (text ++ (ending ++ cs)) := by
      rw [← List.append_assoc]
      rfl
    rw [hcomment, bracketing_comment newline]
    simp only [List.mem_cons, List.not_mem_nil, or_false] at hending
    rcases hending with rfl | rfl <;> rfl

theorem bracketing_tail {tail : List Char} (h : Tail tail) : bracketing .plain tail = [] := by
  cases h with
  | nil => rfl
  | @comment text newline carriage =>
    have hcomment : bracketing .plain ('#' :: text) = bracketing .comment (text ++ []) := by
      rw [List.append_nil]
      rfl
    rw [hcomment, bracketing_comment newline]
    rfl

theorem bracketing_name {w : List Char} (hw : ∀ c ∈ w, Lexeme.isNameChar c) (cs : List Char) :
    bracketing .plain (w ++ cs) = bracketing .plain cs := by
  induction w with
  | nil => rfl
  | cons c w ih =>
    have hc := hw c List.mem_cons_self
    have hbracket : c ∉ openings ++ closings := by
      rw [mem_brackets_iff]
      rintro ((rfl | rfl) | rfl | rfl) <;> exact absurd hc (by decide)
    rw [List.cons_append, bracketing, if_neg fun h => hbracket h.2, Region.next_name hc]
    exact ih fun d hd => hw d (List.mem_cons_of_mem _ hd)

theorem bracketing_body {quote : Char} {text body : List Char} (h : Body quote text body) (hquote : quote ≠ '\\')
    (cs : List Char) : bracketing (.literal quote) (body ++ quote :: cs) = bracketing .plain cs := by
  induction h with
  | nil => simp [bracketing, Region.next]
  | plain quoted backslash newline rest ih => simp [bracketing, Region.next, quoted, backslash, ih]
  | escape he rest ih => simp [bracketing, Region.next, Ne.symm hquote, ih]

theorem bracketing_literal {text w : List Char} (hw : Literal text w) (cs : List Char) :
    bracketing .plain (w ++ cs) = bracketing .plain cs := by
  cases hw with
  | @quoted quote text body hquote hbody =>
    have hliteral : bracketing .plain (quote :: (body ++ [quote]) ++ cs) =
        bracketing (.literal quote) (body ++ quote :: cs) := by
      simp only [List.mem_cons, List.not_mem_nil, or_false] at hquote
      rcases hquote with rfl | rfl <;> simp [bracketing, Region.next, openings, closings]
    have hne : quote ≠ '\\' := by
      rintro rfl
      exact absurd hquote (by decide)
    rw [hliteral, bracketing_body hbody hne]

theorem Region.next_bracket {c : Char} (hc : c ∈ openings ++ closings) : Region.plain.next c = .plain := by
  rcases mem_brackets_iff.1 hc with (rfl | rfl) | rfl | rfl <;> rfl

theorem bracketing_bracket {c : Char} (hc : c ∈ openings ++ closings) (cs : List Char) :
    bracketing .plain (c :: cs) = c :: bracketing .plain cs := by
  rw [bracketing, if_pos ⟨rfl, hc⟩, Region.next_bracket hc]

/-! ### Balance -/

/-- Whether a bracket opens or closes. -/
def isOpening (c : Char) : Bool := c ∈ openings

/-- Whether a word is a bracket, and which. -/
def Lexeme.opens? (x : Lexeme) : Option Bool :=
  match x.token with
  | .opening => some true
  | .closing => some false
  | _ => none

theorem mem_openings_or_closings {g : Region} {cs : List Char} : ∀ c ∈ bracketing g cs, c ∈ openings ++ closings := by
  induction cs generalizing g with
  | nil => exact nofun
  | cons c cs ih =>
    intro d hd
    rw [bracketing] at hd
    split at hd
    case isTrue hc =>
      rcases List.mem_cons.1 hd with rfl | hd
      · exact hc.2
      · exact ih d hd
    case isFalse => exact ih d hd

/-- A word that is whole. -/
def Lexeme.IsWhole (x : Lexeme) : Prop := x.token ≠ .stray ∧ ∀ fault, x.token ≠ .broken fault

/-- The brackets among the words of a text. -/
theorem Words.opens? {before cs : List Char} {xs : List Lexeme} {last : Nat} (h : Words before cs xs last)
    (whole : ∀ x ∈ xs, x.IsWhole) :
    (bracketing .plain cs).map isOpening = xs.filterMap Lexeme.opens? := by
  induction h with
  | done htail => rw [bracketing_tail htail]; rfl
  | gap hg rest ih => rw [bracketing_gap hg, ih whole]
  | word spells apart rest ih =>
    have hrest := ih fun x hx => whole x (List.mem_cons_of_mem _ hx)
    cases spells with
    | name hw =>
      have hchars := (Lexeme.isName_iff.1 hw).2
      rw [List.all_eq_true] at hchars
      rw [bracketing_name hchars, hrest]
      rfl
    | literal hw =>
      rw [bracketing_literal hw, hrest]
      rfl
    | colon => exact hrest
    | @opening c hc =>
      rw [List.singleton_append, bracketing_bracket (List.mem_append_left _ hc), List.map_cons, hrest]
      have hopening : isOpening c = true := decide_eq_true hc
      rw [hopening]
      rfl
    | @closing c hc =>
      rw [List.singleton_append, bracketing_bracket (List.mem_append_right _ hc), List.map_cons, hrest]
      have hclosing : isOpening c = false := by
        rcases mem_closings_iff.1 hc with rfl | rfl <;> rfl
      rw [hclosing]
      rfl
  | broken hquote hbody breaks => exact absurd rfl ((whole _ List.mem_cons_self).2 _)
  | stray strays => exact absurd rfl (whole _ List.mem_cons_self).1

theorem Joined.opens? {xs : List Lexeme} {text : String} (h : Joined xs text) : xs.filterMap Lexeme.opens? = [] := by
  induction h with
  | one => rfl
  | more first ih =>
    rw [List.filterMap_append, ih]
    rfl

theorem Joined.whole {xs : List Lexeme} {text : String} (h : Joined xs text) : ∀ x ∈ xs, x.IsWhole := by
  induction h with
  | one => exact List.forall_mem_singleton.2 ⟨nofun, nofun⟩
  | more first ih => exact List.forall_mem_append.2 ⟨ih, List.forall_mem_singleton.2 ⟨nofun, nofun⟩⟩

theorem Phrased.whole {xs : List Lexeme} {fields : Message} (h : Phrased xs fields) : ∀ x ∈ xs, x.IsWhole := by
  induction h with
  | nil => exact nofun
  | word rest ih =>
    iterate 3 refine List.forall_mem_cons.2 ⟨⟨nofun, nofun⟩, ?_⟩
    exact ih
  | quoted joined rest ih =>
    iterate 2 refine List.forall_mem_cons.2 ⟨⟨nofun, nofun⟩, ?_⟩
    exact List.forall_mem_append.2 ⟨joined.whole, ih⟩
  | @message name l l₁ l₂ colon ys xs inner fields hcolon body rest ihbody ih =>
    have hcolons : ∀ x ∈ colon, x.IsWhole := by
      rcases hcolon with rfl | ⟨lc, rfl⟩
      · exact nofun
      · exact List.forall_mem_singleton.2 ⟨nofun, nofun⟩
    refine List.forall_mem_cons.2 ⟨⟨nofun, nofun⟩, List.forall_mem_append.2 ⟨hcolons, ?_⟩⟩
    refine List.forall_mem_cons.2 ⟨⟨nofun, nofun⟩, List.forall_mem_append.2 ⟨ihbody, ?_⟩⟩
    exact List.forall_mem_cons.2 ⟨⟨nofun, nofun⟩, ih⟩

theorem mem_mixedBrackets {o c : Char} (ho : isOpening o = true) (hmem : c ∈ openings ++ closings)
    (hc : isOpening c = false) : (o, c) ∈ mixedBrackets := by
  rcases mem_brackets_iff.1 hmem with (rfl | rfl) | hclosing
  · cases hc
  · cases hc
  rcases mem_openings_iff.1 (of_decide_eq_true ho) with rfl | rfl <;> rcases hclosing with rfl | rfl <;> decide

/-- The brackets of a message are balanced. -/
theorem Phrased.nested {xs : List Lexeme} {fields : Message} (h : Phrased xs fields) {l : List Char}
    (hl : ∀ c ∈ l, c ∈ openings ++ closings) (hopens : l.map isOpening = xs.filterMap Lexeme.opens?) :
    Nested mixedBrackets l := by
  induction h generalizing l with
  | nil =>
    rw [List.map_eq_nil_iff.1 hopens]
    exact .nil
  | word rest ih => exact ih hl hopens
  | quoted joined rest ih =>
    rw [List.filterMap_cons, List.filterMap_cons, List.filterMap_append, joined.opens?] at hopens
    exact ih hl hopens
  | @message name l₀ l₁ l₂ colon ys xs inner fields hcolon body rest ihbody ih =>
    have hcolons : colon.filterMap Lexeme.opens? = [] := by rcases hcolon with rfl | ⟨lc, rfl⟩ <;> rfl
    rw [List.filterMap_cons, List.filterMap_append, hcolons, List.nil_append, List.filterMap_cons,
      List.filterMap_append, List.filterMap_cons] at hopens
    obtain ⟨o, l, rfl, ho, hopens⟩ := List.map_eq_cons_iff.1 hopens
    obtain ⟨l₁, l₂, rfl, hinner, hopens⟩ := List.map_eq_append_iff.1 hopens
    obtain ⟨c, l₂, rfl, hc, hrest⟩ := List.map_eq_cons_iff.1 hopens
    simp only [List.forall_mem_cons, List.forall_mem_append] at hl
    obtain ⟨-, hl₁, hmem, hl₂⟩ := hl
    exact .wrap (mem_mixedBrackets ho hmem hc) (ihbody hl₁ hinner) (ih hl₂ hrest)

/-! ### Kinds of brackets -/

namespace Rebracketed

variable {g : Region} {cs ds : List Char}

theorem refl (g : Region) (cs : List Char) : Rebracketed g cs cs := by
  induction cs generalizing g with
  | nil => exact .nil
  | cons c cs ih => exact .same (ih _)

theorem head_comment (h : Rebracketed .comment cs ds) : cs.head? = ds.head? := by
  cases h <;> rfl

theorem length_bracketing (h : Rebracketed g cs ds) : (bracketing g ds).length = (bracketing g cs).length := by
  induction h with
  | nil => rfl
  | same rest ih =>
    rw [bracketing, bracketing]
    split
    · simp [ih]
    · exact ih
  | opening hc hd rest ih =>
    rw [bracketing_bracket (List.mem_append_left _ hc), bracketing_bracket (List.mem_append_left _ hd)]
    simp [ih]
  | closing hc hd rest ih =>
    rw [bracketing_bracket (List.mem_append_right _ hc), bracketing_bracket (List.mem_append_right _ hd)]
    simp [ih]

/-- The last bracket can be given the other kind. -/
theorem exists_last {l : List Char} {c d : Char} (hl : bracketing g cs = l ++ [c]) (hc : c ∈ closings)
    (hd : d ∈ closings) : ∃ ds, Rebracketed g cs ds ∧ bracketing g ds = l ++ [d] := by
  induction cs generalizing g l with
  | nil => simp [bracketing] at hl
  | cons b cs ih =>
    rw [bracketing] at hl
    split at hl
    case isFalse hb =>
      obtain ⟨ds, hds, hlast⟩ := ih hl
      exact ⟨b :: ds, .same hds, by rw [bracketing, if_neg hb, hlast]⟩
    case isTrue hb =>
      obtain ⟨rfl, hbracket⟩ := hb
      cases l with
      | nil =>
        obtain ⟨rfl, hrest⟩ := List.cons.inj hl
        rw [Region.next_bracket hbracket] at hrest
        exact ⟨d :: cs, .closing hc hd (refl _ _), by rw [bracketing_bracket (List.mem_append_right _ hd), hrest]; rfl⟩
      | cons a l =>
        obtain ⟨rfl, hrest⟩ := List.cons.inj hl
        obtain ⟨ds, hds, hlast⟩ := ih hrest
        exact ⟨b :: ds, .same hds, by rw [bracketing, if_pos ⟨rfl, hbracket⟩, hlast]; rfl⟩

end Rebracketed

/-! ### Words of rebracketed texts -/

namespace Lexeme

/-- What the scanner is in. -/
def Mode.region : Mode → Region
  | .between | .name _ => .plain
  | .comment => .comment
  | .literal quote _ => .literal quote
  | .escape quote _ => .escape quote

/-- Texts that are scanned alike in a region. -/
def ScannedAlike (g : Region) (cs ds : List Char) : Prop :=
  ∀ line mode, mode.region = g → scan line mode cs = scan line mode ds

theorem ScannedAlike.start {c : Char} {cs ds : List Char} (h : ScannedAlike (Region.plain.next c) cs ds) (line : Nat) :
    scan.start line c (scan · · cs) = scan.start line c (scan · · ds) := by
  by_cases hblank : isBlank c
  · rw [start_blank hblank, start_blank hblank]
    exact h _ .between (Region.next_blank hblank).symm
  by_cases hname : isNameChar c
  · rw [start_name hname, start_name hname]
    exact h _ (.name [c]) (Region.next_name hname).symm
  have hnewline : c ≠ '\n' := fun hc => hblank (by rw [hc]; rfl)
  unfold scan.start
  simp only [if_neg hnewline, if_neg hblank, if_neg hname]
  split
  · exact h _ .comment rfl
  · exact h _ (.literal '"' []) rfl
  · exact h _ (.literal '\'' []) rfl
  · rw [h _ .between rfl]
  · rw [h _ .between rfl]
  · rw [h _ .between rfl]
  · rw [h _ .between rfl]
  · rw [h _ .between rfl]
  · rfl

theorem ScannedAlike.same {g : Region} {c : Char} {cs ds : List Char} (hrest : Rebracketed (g.next c) cs ds)
    (h : ScannedAlike (g.next c) cs ds) : ScannedAlike g (c :: cs) (c :: ds) := by
  intro line mode hmode
  subst hmode
  cases mode with
  | between => rw [scan_between, scan_between, h.start]
  | comment =>
    rw [scan, scan]
    by_cases hnewline : c = '\n'
    · subst hnewline
      rw [if_pos rfl, if_pos rfl]
      exact h _ .between rfl
    · have hcomment : Region.comment.next c = .comment := if_neg hnewline
      rw [Mode.region, hcomment] at hrest h
      rw [if_neg hnewline, if_neg hnewline, hrest.head_comment, h _ .comment rfl]
  | name done =>
    rw [scan, scan]
    by_cases hc : isNameChar c
    · rw [if_pos hc, if_pos hc]
      exact h _ (.name (c :: done)) (Region.next_name hc).symm
    · rw [if_neg hc, if_neg hc, h.start]
  | literal quote done =>
    rw [scan, scan]
    by_cases hend : c = quote
    · rw [if_pos hend, if_pos hend, h _ .between (if_pos hend).symm]
    rw [if_neg hend, if_neg hend]
    by_cases hnewline : c = '\n'
    · rw [if_pos hnewline, if_pos hnewline]
    rw [if_neg hnewline, if_neg hnewline]
    by_cases hbackslash : c = '\\'
    · subst hbackslash
      rw [if_pos rfl, if_pos rfl]
      exact h _ (.escape quote done) (by simp [Mode.region, Region.next, hend])
    · rw [if_neg hbackslash, if_neg hbackslash]
      exact h _ (.literal quote (c :: done)) (by simp [Mode.region, Region.next, hend, hbackslash])
  | escape quote done =>
    rw [scan, scan]
    cases escaped? c with
    | none => rfl
    | some e => exact h _ (.literal quote (e :: done)) rfl

/-- A name ends before a bracket. -/
theorem scan_name_bracket {c : Char} (hc : ¬isNameChar c) (line : Nat) (done cs : List Char) :
    scan line (.name done) (c :: cs) =
      before ⟨.name (String.ofList done.reverse), line⟩ (scan line .between (c :: cs)) := by
  rw [scan_between, scan, if_neg hc]
  rfl

theorem ScannedAlike.bracket {c d : Char} {cs ds : List Char} (hc : ¬isNameChar c) (hd : ¬isNameChar d)
    (h : ∀ line, scan line .between (c :: cs) = scan line .between (d :: ds)) :
    ScannedAlike .plain (c :: cs) (d :: ds) := by
  intro line mode hmode
  cases mode with
  | between => exact h line
  | name done => rw [scan_name_bracket hc, scan_name_bracket hd, h]
  | comment => cases hmode
  | literal => cases hmode
  | escape => cases hmode

theorem scannedAlike {g : Region} {cs ds : List Char} (h : Rebracketed g cs ds) : ScannedAlike g cs ds := by
  induction h with
  | nil => exact fun _ _ _ => rfl
  | same rest ih => exact .same rest ih
  | opening hc hd rest ih =>
    refine .bracket (not_isNameChar_of_bracket (.inl hc)) (not_isNameChar_of_bracket (.inl hd)) fun line => ?_
    rw [scan_opening hc, scan_opening hd, ih line .between rfl]
  | closing hc hd rest ih =>
    refine .bracket (not_isNameChar_of_bracket (.inr hc)) (not_isNameChar_of_bracket (.inr hd)) fun line => ?_
    rw [scan_closing hc, scan_closing hd, ih line .between rfl]

end Lexeme

theorem parse_rebracketed {s t : String} (h : Rebracketed .plain s.toList t.toList) :
    Message.parse t = Message.parse s := by
  rw [Message.parse, Message.parse, Lexeme.ofChars, Lexeme.ofChars, Lexeme.scannedAlike h 1 .between rfl]

/-! ### Proper nesting -/

theorem Nested.of_pairs {pairs others : List (Char × Char)} {l : List Char} (h : Nested pairs l)
    (hpairs : ∀ o ∈ l, ∀ c ∈ l, (o, c) ∈ pairs → (o, c) ∈ others) : Nested others l := by
  induction h with
  | nil => exact .nil
  | wrap pair hinner hrest ihinner ihrest =>
    refine .wrap (hpairs _ (by simp) _ (by simp) pair) (ihinner fun o ho c hc => hpairs o ?_ c ?_)
      (ihrest fun o ho c hc => hpairs o ?_ c ?_)
    all_goals simp [*]

/-- There are as many opening braces as closing ones. -/
theorem Nested.count_braces {l : List Char} (h : Nested brackets l) : l.count '\x7b' = l.count '\x7d' := by
  induction h with
  | nil => rfl
  | @wrap o c inner rest pair hinner hrest ihinner ihrest =>
    simp only [brackets, List.mem_cons, Prod.mk.injEq, List.not_mem_nil, or_false] at pair
    rcases pair with ⟨rfl, rfl⟩ | ⟨rfl, rfl⟩
    · simp [ihinner, ihrest]
      omega
    · simp [ihinner, ihrest]

/-- The last of balanced brackets closes. -/
theorem Nested.getLast {l : List Char} (h : Nested mixedBrackets l) (hne : l ≠ []) :
    ∃ l' c, c ∈ closings ∧ l = l' ++ [c] := by
  induction h with
  | nil => contradiction
  | @wrap o c inner rest pair hinner hrest ihinner ihrest =>
    by_cases hnil : rest = []
    · subst hnil
      refine ⟨o :: inner, c, ?_, rfl⟩
      have hall : ∀ p ∈ mixedBrackets, p.2 ∈ closings := by decide
      exact hall _ pair
    · obtain ⟨l', d, hd, rfl⟩ := ihrest hnil
      exact ⟨o :: (inner ++ c :: l'), d, hd, by simp⟩

/-- Balanced brackets of one kind are properly nested. -/
theorem Nested.of_one_kind {l : List Char} (h : Nested mixedBrackets l) {p : Char × Char} (hp : p ∈ brackets)
    (hkind : ∀ c ∈ l, c = p.1 ∨ c = p.2) : Nested brackets l := by
  refine h.of_pairs fun o ho c hc hmixed => ?_
  simp only [brackets, List.mem_cons, List.not_mem_nil, or_false] at hp
  revert hmixed
  rcases hp with rfl | rfl <;> rcases hkind o ho with rfl | rfl <;> rcases hkind c hc with rfl | rfl <;> decide

/-- If a text with brackets is read, so is one with the same brackets but for the kinds, and not properly nested. -/
theorem exists_mismatched {s : String} (h : Nested mixedBrackets (bracketing .plain s.toList))
    (hne : bracketing .plain s.toList ≠ []) :
    ∃ t : String, Rebracketed .plain s.toList t.toList ∧ ¬Nested brackets (bracketing .plain t.toList) := by
  obtain ⟨l, c, hc, hlast⟩ := h.getLast hne
  -- the last bracket of the text as a brace, and as an angle bracket
  obtain ⟨cs, hcs, hbrace⟩ := Rebracketed.exists_last hlast hc (show '\x7d' ∈ closings by decide)
  obtain ⟨ds, hds, hangle⟩ := Rebracketed.exists_last hlast hc (show '>' ∈ closings by decide)
  by_cases hnested : Nested brackets (bracketing .plain cs)
  · refine ⟨String.ofList ds, by rwa [String.toList_ofList], fun hother => ?_⟩
    rw [String.toList_ofList, hangle] at hother
    rw [hbrace] at hnested
    have hcount := hnested.count_braces
    have hcount' := hother.count_braces
    simp at hcount hcount'
    omega
  · exact ⟨String.ofList cs, by rwa [String.toList_ofList], by rwa [String.toList_ofList]⟩

/-- The brackets of a text that is read are balanced, and their kinds are not looked at: with brackets of other kinds
the text is read as the same message. So brackets of one kind are properly nested, and if a text has any, some choice
of the kinds is not. -/
theorem nesting_up_to_kind (s : String) (m : Message) (h : Message.parse s = .ok m) :
    Nested mixedBrackets (bracketing .plain s.toList) ∧
    (∀ t : String, Rebracketed .plain s.toList t.toList → Message.parse t = .ok m) ∧
    (∀ p ∈ brackets, (∀ c ∈ bracketing .plain s.toList, c = p.1 ∨ c = p.2) →
      Nested brackets (bracketing .plain s.toList)) ∧
    ((∀ t : String, Rebracketed .plain s.toList t.toList → Nested brackets (bracketing .plain t.toList)) ↔
      bracketing .plain s.toList = []) := by
  obtain ⟨xs, last, hwords, hparse⟩ := parse_words s
  rw [h] at hparse
  have hnested : Nested mixedBrackets (bracketing .plain s.toList) :=
    hparse.nested mem_openings_or_closings (hwords.opens? hparse.whole)
  refine ⟨hnested, fun t ht => (parse_rebracketed ht).trans h, fun p hp => hnested.of_one_kind hp, ?_⟩
  constructor
  · intro hall
    by_cases hnil : bracketing .plain s.toList = []
    · exact hnil
    · obtain ⟨t, ht, hbad⟩ := exists_mismatched hnested hnil
      exact absurd (hall t ht) hbad
  · intro hnil t ht
    have hlength := ht.length_bracketing
    rw [hnil, List.length_nil, List.length_eq_zero_iff] at hlength
    rw [hlength]
    exact .nil

theorem nesting_up_to_kind_braces :
    Message.parse "a\x7b#<\n\x7d" = .ok [⟨"a", .message [], 1⟩] ∧
    Nested brackets (bracketing .plain "a\x7b#<\n\x7d".toList) ∧
    Message.parse "a\x7b#<\n>" = .ok [⟨"a", .message [], 1⟩] := by
  have hread : Message.parse "a\x7b#<\n\x7d" = .ok [⟨"a", .message [], 1⟩] := rfl
  have hangle : Rebracketed .plain "a\x7b#<\n\x7d".toList "a\x7b#<\n>".toList :=
    .same (.same (.same (.same (.same (.closing (by decide) (by decide) .nil)))))
  obtain ⟨-, hkinds, hone, -⟩ := nesting_up_to_kind _ _ hread
  have hbraces : ∀ c ∈ ['\x7b', '\x7d'], c = '\x7b' ∨ c = '\x7d' := by simp
  exact ⟨hread, hone ('\x7b', '\x7d') (by decide) hbraces, hkinds _ hangle⟩

/-- A message that a brace opens and an angle bracket closes is read. -/
theorem mixed_brackets_accepted :
    Message.parse "a \x7b b: 1 >" = .ok [⟨"a", .message [⟨"b", .scalar "1" false, 1⟩], 1⟩] ∧
    bracketing .plain "a \x7b b: 1 >".toList = ['\x7b', '>'] ∧
    ¬Nested brackets (bracketing .plain "a \x7b b: 1 >".toList) := by
  refine ⟨rfl, by decide, fun h => ?_⟩
  exact absurd h.count_braces (by decide)

end RouteProgramming.TextFormat
