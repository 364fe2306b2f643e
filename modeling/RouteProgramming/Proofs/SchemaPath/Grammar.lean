import RouteProgramming.SchemaPath

/-! The grammar of paths, and the paths that are accepted. A segment is read exactly as the
grammar has it: the value of a key predicate goes to the first closing bracket. The splitting
into segments counts brackets instead, and an opening bracket in a value counts: the segment
is then not ended by the next slash. So an opening bracket may stand in the values of the last
segment only. -/

namespace RouteProgramming.SchemaPath

/-! ### The grammar -/

/-- A letter or an underscore, then letters, digits, underscores, dots and hyphens. -/
structure Name where
  first : Char
  rest : List Char
  first_letter : first.isAlpha ∨ first = '_'
  rest_letters : ∀ c ∈ rest, c.isAlphanum ∨ c = '_' ∨ c = '.' ∨ c = '-'

def Name.text (n : Name) : List Char := n.first :: n.rest

/-- A key and any value without a closing bracket. -/
structure Predicate where
  key : Name
  value : List Char
  value_open : ']' ∉ value

def Predicate.text (p : Predicate) : List Char := '[' :: (p.key.text ++ '=' :: (p.value ++ [']']))

structure Segment where
  /-- The name of the module, with a colon behind it in the text. -/
  qualifier : Option Name
  element : Name
  predicates : List Predicate

namespace Segment

def head (g : Segment) : List Char :=
  match g.qualifier with
  | none => g.element.text
  | some m => m.text ++ ':' :: g.element.text

def text (g : Segment) : List Char := g.head ++ g.predicates.flatMap Predicate.text

/-- No value has an opening bracket. -/
def Plain (g : Segment) : Prop := ∀ p ∈ g.predicates, '[' ∉ p.value

instance (g : Segment) : Decidable g.Plain := inferInstanceAs (Decidable (∀ p ∈ g.predicates, '[' ∉ p.value))

def withPredicate (g : Segment) (p : Predicate) : Segment := { g with predicates := g.predicates ++ [p] }

@[simp] theorem text_withPredicate (g : Segment) (p : Predicate) : (g.withPredicate p).text = g.text ++ p.text := by
  simp [text, head, withPredicate]

end Segment

def pathText (gs : List Segment) : List Char := gs.flatMap fun g => '/' :: g.text

variable {p q : Place} {c : Char} {cs w : List Char} {n : Name} {g : Segment} {gs : List Segment} {d e : Nat}

/-! ### Names -/

theorem isNameStart_iff : isNameStart c = true ↔ c.isAlpha ∨ c = '_' := by simp [isNameStart]

theorem isNameChar_iff : isNameChar c = true ↔ c.isAlphanum ∨ c = '_' ∨ c = '.' ∨ c = '-' := by
  simp [isNameChar, or_assoc]

theorem isNameChar_of_isNameStart (h : isNameStart c = true) : isNameChar c = true := by
  rcases isNameStart_iff.mp h with h | h
  · exact isNameChar_iff.mpr (.inl (by simp [Char.isAlphanum, h]))
  · exact isNameChar_iff.mpr (.inr (.inl h))

namespace Name

def single (c : Char) (h : isNameStart c = true) : Name where
  first := c
  rest := []
  first_letter := isNameStart_iff.mp h
  rest_letters := nofun

def longer (n : Name) (c : Char) (h : isNameChar c = true) : Name where
  first := n.first
  rest := n.rest ++ [c]
  first_letter := n.first_letter
  rest_letters := by
    intro d hd
    rcases List.mem_append.mp hd with hd | hd
    · exact n.rest_letters d hd
    · rw [List.mem_singleton.mp hd]
      exact isNameChar_iff.mp h

@[simp] theorem text_single (h : isNameStart c = true) : (single c h).text = [c] := rfl

@[simp] theorem text_longer (h : isNameChar c = true) : (n.longer c h).text = n.text ++ [c] := rfl

theorem isNameChar_of_mem (h : c ∈ n.text) : isNameChar c = true := by
  rcases List.mem_cons.mp h with rfl | h
  · exact isNameChar_of_isNameStart (isNameStart_iff.mpr n.first_letter)
  · exact isNameChar_iff.mpr (n.rest_letters c h)

end Name

/-! ### Reading a segment -/

namespace Place

/-- The place after some more characters. -/
def run (p : Place) (cs : List Char) : Option Place := cs.foldlM (fun p c => p.next c) p

theorem run_cons : p.run (c :: cs) = (p.next c).bind fun q => q.run cs := by
  rw [run, List.foldlM_cons]
  rfl

theorem run_append : p.run (w ++ cs) = (p.run w).bind fun q => q.run cs := by
  rw [run, List.foldlM_append]
  rfl

theorem next_bracket (h : p.isEnd = true) : p.next '[' = some .bracket := by
  cases p with
  | name | element | closed => rfl
  | start | colon | bracket | key | value => cases h

theorem next_slash (h : p.isEnd = true) : p.next '/' = none := by
  cases p with
  | name | element | closed => rfl
  | start | colon | bracket | key | value => cases h

theorem run_stay (h : ∀ c ∈ cs, p.next c = some p) : p.run cs = some p := by
  induction cs with
  | nil => rfl
  | cons c cs ih =>
    rw [run_cons, h c List.mem_cons_self]
    exact ih fun d hd => h d (List.mem_cons_of_mem c hd)

/-- A name is read where its first character leads to a place that every later one keeps. -/
theorem run_name (first : ∀ c, isNameStart c = true → p.next c = some q)
    (stay : ∀ c, isNameChar c = true → q.next c = some q) : p.run n.text = some q := by
  rw [Name.text, run_cons, first _ (isNameStart_iff.mpr n.first_letter)]
  exact run_stay fun c hc => stay c (isNameChar_iff.mpr (n.rest_letters c hc))

theorem run_value (h : ']' ∉ w) : Place.value.run w = some .value :=
  run_stay fun _ hc => if_neg (ne_of_mem_of_not_mem hc h)

theorem run_predicate {r : Predicate} (h : p.isEnd = true) : p.run r.text = some .closed := by
  have hkey : Place.bracket.run r.key.text = some .key :=
    run_name (fun c hc => by simp [next, hc]) (fun c hc => by simp [next, hc])
  rw [Predicate.text, run_cons, next_bracket h, Option.bind_some, run_append, hkey, Option.bind_some, run_cons]
  simp only [next, show isNameChar '=' = false by decide, Bool.false_eq_true, if_false, if_true, Option.bind_some]
  rw [run_append, run_value r.value_open]
  rfl

theorem run_predicates (rs : List Predicate) (h : p.isEnd = true) :
    ∃ q, q.isEnd = true ∧ p.run (rs.flatMap Predicate.text) = some q := by
  induction rs generalizing p with
  | nil => exact ⟨p, h, rfl⟩
  | cons r rs ih =>
    obtain ⟨q, hend, hrun⟩ := ih (p := .closed) rfl
    refine ⟨q, hend, ?_⟩
    rw [List.flatMap_cons, run_append, run_predicate h]
    exact hrun

theorem run_head : ∃ q, q.isEnd = true ∧ Place.start.run g.head = some q := by
  have hfirst (n : Name) : Place.start.run n.text = some .name :=
    run_name (fun c hc => by simp [next, hc]) (fun c hc => by simp [next, hc])
  have hsecond (n : Name) : Place.colon.run n.text = some .element :=
    run_name (fun c hc => by simp [next, hc]) (fun c hc => by simp [next, hc])
  unfold Segment.head
  split
  case h_1 => exact ⟨.name, rfl, hfirst _⟩
  case h_2 m _ =>
    refine ⟨.element, rfl, ?_⟩
    rw [run_append, hfirst, Option.bind_some, run_cons]
    exact hsecond _

/-- A segment of the grammar is read to its end. -/
theorem run_text : ∃ q, q.isEnd = true ∧ Place.start.run g.text = some q := by
  obtain ⟨q, hend, hrun⟩ := run_head (g := g)
  obtain ⟨q', hend', hrun'⟩ := run_predicates g.predicates hend
  refine ⟨q', hend', ?_⟩
  rw [Segment.text, run_append, hrun]
  exact hrun'

end Place

/-- What has been read of a segment at each place. -/
inductive Reading : Place → List Char → Prop
  | start : Reading .start []
  | name (n : Name) : Reading .name n.text
  | colon (m : Name) : Reading .colon (m.text ++ [':'])
  | element (m n : Name) : Reading .element (m.text ++ ':' :: n.text)
  | bracket (g : Segment) : Reading .bracket (g.text ++ ['['])
  | key (g : Segment) (n : Name) : Reading .key (g.text ++ '[' :: n.text)
  | value (g : Segment) (n : Name) {w : List Char} (h : ']' ∉ w) :
    Reading .value (g.text ++ '[' :: (n.text ++ '=' :: w))
  | closed (g : Segment) (r : Predicate) : Reading .closed (g.text ++ r.text)

namespace Reading

/-- Where a segment may end, what has been read is a segment. -/
theorem exists_segment (h : Reading p w) (hend : p.isEnd = true) : ∃ g : Segment, w = g.text := by
  cases h with
  | name n => exact ⟨⟨none, n, []⟩, by simp [Segment.text, Segment.head]⟩
  | element m n => exact ⟨⟨some m, n, []⟩, by simp [Segment.text, Segment.head]⟩
  | closed g r => exact ⟨g.withPredicate r, by simp⟩
  | start | colon | bracket | key | value => cases hend

theorem bracket_of_isEnd (h : Reading p w) (hend : p.isEnd = true) : Reading .bracket (w ++ ['[']) := by
  obtain ⟨g, rfl⟩ := h.exists_segment hend
  exact .bracket g

/-- Each character leads from what has been read to what is read then. -/
theorem step (h : Reading p w) (hnext : p.next c = some q) : Reading q (w ++ [c]) := by
  cases h with
  | start =>
    obtain ⟨hc, rfl⟩ : isNameStart c = true ∧ Place.name = q := by simpa [Place.next] using hnext
    exact .name (.single c hc)
  | name n =>
    simp only [Place.next] at hnext
    split at hnext
    case isTrue hc => cases hnext; exact .name (n.longer c hc)
    split at hnext
    case isTrue hc => cases hnext; cases hc; exact .colon n
    split at hnext
    case isTrue hc => cases hnext; cases hc; exact (Reading.name n).bracket_of_isEnd rfl
    cases hnext
  | colon m =>
    obtain ⟨hc, rfl⟩ : isNameStart c = true ∧ Place.element = q := by simpa [Place.next] using hnext
    simpa using Reading.element m (.single c hc)
  | element m n =>
    simp only [Place.next] at hnext
    split at hnext
    case isTrue hc => cases hnext; simpa using Reading.element m (n.longer c hc)
    split at hnext
    case isTrue hc => cases hnext; cases hc; exact (Reading.element m n).bracket_of_isEnd rfl
    cases hnext
  | bracket g =>
    obtain ⟨hc, rfl⟩ : isNameStart c = true ∧ Place.key = q := by simpa [Place.next] using hnext
    simpa using Reading.key g (.single c hc)
  | key g n =>
    simp only [Place.next] at hnext
    split at hnext
    case isTrue hc => cases hnext; simpa using Reading.key g (n.longer c hc)
    split at hnext
    case isTrue hc => cases hnext; cases hc; simpa using Reading.value g n (w := []) (by simp)
    cases hnext
  | value g n hv =>
    rename_i v
    simp only [Place.next] at hnext
    split at hnext
    case isTrue hc =>
      cases hnext
      cases hc
      simpa [Predicate.text] using Reading.closed g ⟨n, v, hv⟩
    case isFalse hc =>
      cases hnext
      simpa using Reading.value g n (w := v ++ [c]) (by simp [hv, Ne.symm hc])
  | closed g r =>
    simp only [Place.next] at hnext
    split at hnext
    case isTrue hc => cases hnext; cases hc; exact (Reading.closed g r).bracket_of_isEnd rfl
    cases hnext

theorem run (h : Reading p w) (hrun : p.run cs = some q) : Reading q (w ++ cs) := by
  induction cs generalizing p w with
  | nil =>
    cases hrun
    simpa using h
  | cons c cs ih =>
    rw [Place.run_cons] at hrun
    obtain ⟨p', hnext, hrun⟩ := Option.bind_eq_some_iff.mp hrun
    simpa using ih (h.step hnext) hrun

end Reading

/-- The segments of the program are the segments of the grammar. -/
theorem isSegment_iff : isSegment cs = true ↔ ∃ g : Segment, cs = g.text := by
  constructor
  · intro h
    obtain ⟨q, hrun, hend⟩ := (Option.any_eq_true ..).mp h
    exact (Reading.start.run hrun).exists_segment hend
  · rintro ⟨g, rfl⟩
    obtain ⟨q, hend, hrun⟩ := Place.run_text (g := g)
    show (Place.start.run g.text).any Place.isEnd = true
    rw [hrun]
    exact hend

/-- A segment is over before a slash. -/
theorem not_isSegment_slash : isSegment (g.text ++ '/' :: cs) = false := by
  obtain ⟨q, hend, hrun⟩ := Place.run_text (g := g)
  show (Place.start.run (g.text ++ '/' :: cs)).any Place.isEnd = false
  rw [Place.run_append, hrun, Option.bind_some, Place.run_cons, Place.next_slash hend]
  rfl

/-! ### Splitting at slashes -/

theorem segments_ne_nil : segments d cs ≠ [] := by
  cases cs with
  | nil => exact nofun
  | cons c cs =>
    simp only [segments]
    split
    · exact nofun
    · split <;> exact nofun

theorem segments_cons (h : c = '/' → d ≠ 0) :
    segments d (c :: cs) = (segments (nesting d c) cs).modifyHead (c :: ·) := by
  have hin : ¬ (c = '/' ∧ d = 0) := fun ⟨hc, hd⟩ => h hc hd
  simp only [segments, if_neg hin]
  split
  case h_1 hnil => exact absurd hnil segments_ne_nil
  case h_2 hcons => rw [hcons]; rfl

theorem segments_slash : segments 0 ('/' :: cs) = [] :: segments 0 cs := rfl

/-- A path is its segments, each behind a slash. -/
theorem flatMap_segments : ((segments d cs).flatMap fun w => '/' :: w) = '/' :: cs := by
  induction cs generalizing d with
  | nil => rfl
  | cons c cs ih =>
    by_cases h : c = '/' ∧ d = 0
    · obtain ⟨rfl, rfl⟩ := h
      rw [segments_slash, List.flatMap_cons, ih]
      rfl
    · rw [segments_cons fun hc hd => h ⟨hc, hd⟩]
      have hsplit := ih (d := nesting d c)
      cases hrest : segments (nesting d c) cs with
      | nil => exact absurd hrest segments_ne_nil
      | cons v vs =>
        rw [hrest, List.flatMap_cons, List.cons_append, List.cons.injEq] at hsplit
        simp only [List.modifyHead_cons, List.flatMap_cons, List.cons_append]
        rw [hsplit.2]

/-- A text that is not split where `d` brackets are open, and that leaves `e` open. -/
inductive Whole : Nat → List Char → Nat → Prop
  | nil {d : Nat} : Whole d [] d
  | cons {d e : Nat} {c : Char} {w : List Char} (inside : c = '/' → d ≠ 0) (rest : Whole (nesting d c) w e) :
    Whole d (c :: w) e

namespace Whole

theorem append {v : List Char} {k : Nat} (hv : Whole d v k) (hw : Whole k w e) : Whole d (v ++ w) e := by
  induction hv with
  | nil => exact hw
  | cons inside _ ih => exact .cons inside (ih hw)

theorem segments_append (h : Whole d w e) : segments d (w ++ cs) = (segments e cs).modifyHead (w ++ ·) := by
  induction h with
  | nil => exact (congrFun List.modifyHead_id _).symm
  | cons inside _ ih =>
    rw [List.cons_append, segments_cons inside, ih, List.modifyHead_modifyHead]
    rfl

theorem open_bracket : Whole d ['['] (d + 1) := .cons (fun h => absurd h (by decide)) .nil

theorem close_bracket : Whole (d + 1) [']'] d := .cons (fun h => absurd h (by decide)) .nil

theorem char (hslash : c ≠ '/') (hopen : c ≠ '[') (hclose : c ≠ ']') : Whole d [c] d := by
  refine .cons (fun h => absurd h hslash) ?_
  rw [nesting, if_neg hopen, if_neg hclose]
  exact .nil

theorem nameChars (h : ∀ c ∈ w, isNameChar c = true) : Whole d w d := by
  induction w with
  | nil => exact .nil
  | cons c w ih =>
    have hc := h c List.mem_cons_self
    refine (char ?_ ?_ ?_).append (ih fun c hc => h c (List.mem_cons_of_mem _ hc)) <;>
      rintro rfl <;> exact absurd hc (by decide)

theorem name : Whole d n.text d := nameChars fun _ => Name.isNameChar_of_mem

theorem head : Whole d g.head d := by
  unfold Segment.head
  split
  · exact name
  · exact name.append ((char (by decide) (by decide) (by decide)).append name)

/-- Inside brackets slashes do not count and opening brackets do. -/
theorem value (hd : 0 < d) (h : ']' ∉ w) : Whole d w (d + w.count '[') := by
  induction w generalizing d with
  | nil => exact .nil
  | cons c w ih =>
    have hclose : c ≠ ']' := by rintro rfl; exact h List.mem_cons_self
    have hrest : ']' ∉ w := fun hw => h (List.mem_cons_of_mem c hw)
    refine .cons (fun _ => Nat.ne_of_gt hd) ?_
    by_cases hopen : c = '['
    · subst hopen
      rw [nesting, if_pos rfl, List.count_cons_self, Nat.add_comm (w.count _), ← Nat.add_assoc]
      exact ih (Nat.succ_pos d) hrest
    · rw [nesting, if_neg hopen, if_neg hclose, List.count_cons_of_ne hopen]
      exact ih hd hrest

theorem predicate (r : Predicate) : Whole d r.text (d + r.value.count '[') := by
  have hvalue : Whole (d + 1) r.value (d + r.value.count '[' + 1) := by
    simpa [Nat.add_right_comm] using value (Nat.succ_pos d) r.value_open
  have hequals : Whole (d + 1) ['='] (d + 1) := char (by decide) (by decide) (by decide)
  exact open_bracket.append (name.append (hequals.append (hvalue.append close_bracket)))

theorem predicates (rs : List Predicate) :
    Whole d (rs.flatMap Predicate.text) (d + (rs.flatMap Predicate.value).count '[') := by
  induction rs generalizing d with
  | nil => exact .nil
  | cons r rs ih =>
    rw [List.flatMap_cons, List.flatMap_cons, List.count_append, ← Nat.add_assoc]
    exact (predicate r).append ih

end Whole

/-- How many brackets are taken for open behind a segment. -/
def Segment.excess (g : Segment) : Nat := (g.predicates.flatMap Predicate.value).count '['

theorem Segment.excess_eq_zero : g.excess = 0 ↔ g.Plain := by
  simp [excess, Plain, List.count_eq_zero]

theorem Whole.segment : Whole d g.text (d + g.excess) := head.append (predicates g.predicates)

theorem segments_text : segments 0 g.text = [g.text] := by
  rw [← List.append_nil g.text, Whole.segment.segments_append]
  rfl

theorem segments_plain (h : g.Plain) : segments 0 (g.text ++ '/' :: cs) = g.text :: segments 0 cs := by
  rw [Whole.segment.segments_append, Segment.excess_eq_zero.mpr h]
  simp [segments_slash]

/-- After a segment that is not plain the slash and what is behind it are taken for its own. -/
theorem segments_not_plain (h : ¬ g.Plain) (cs : List Char) :
    ∃ w ws, segments 0 (g.text ++ '/' :: cs) = (g.text ++ '/' :: w) :: ws := by
  have hopen : 0 + g.excess ≠ 0 := by
    rw [Nat.zero_add]
    exact fun hzero => h (Segment.excess_eq_zero.mp hzero)
  rw [Whole.segment.segments_append, segments_cons fun _ => hopen]
  cases hrest : segments (nesting (0 + g.excess) '/') cs with
  | nil => exact absurd hrest segments_ne_nil
  | cons w ws => exact ⟨w, ws, rfl⟩

/-! ### Accepted paths -/

theorem checkSegments_eq_ok {ws : List (List Char)} :
    checkSegments ws = .ok () ↔ ∀ w ∈ ws, isSegment w = true := by
  induction ws with
  | nil => simp [checkSegments]
  | cons w ws ih =>
    cases w with
    | nil => simp [checkSegments, show isSegment [] = false from rfl]
    | cons c w =>
      by_cases h : isSegment (c :: w) = true
      · rw [checkSegments, if_pos h, ih, List.forall_mem_cons, and_iff_right h]
        exact nofun
      · simp [checkSegments, h]

theorem checkChars_eq_ok :
    checkChars cs = .ok () ↔ ∃ rest, cs = '/' :: rest ∧ ∀ w ∈ segments 0 rest, isSegment w = true := by
  unfold checkChars
  split
  case h_1 =>
    refine iff_of_false nofun ?_
    rintro ⟨rest, hrest, hall⟩
    cases hrest
    exact absurd (hall [] (List.mem_singleton.mpr rfl)) (by decide)
  case h_2 rest _ =>
    rw [checkSegments_eq_ok]
    simp
  case h_3 hslash =>
    refine iff_of_false nofun ?_
    rintro ⟨rest, rfl, -⟩
    exact hslash rest rfl

/-- Segments of a text that are all segments of the grammar. -/
theorem exists_map_text {ws : List (List Char)} (h : ∀ w ∈ ws, isSegment w = true) :
    ∃ gs : List Segment, ws = gs.map Segment.text := by
  induction ws with
  | nil => exact ⟨[], rfl⟩
  | cons w ws ih =>
    obtain ⟨g, rfl⟩ := isSegment_iff.mp (h w List.mem_cons_self)
    obtain ⟨gs, rfl⟩ := ih fun v hv => h v (List.mem_cons_of_mem _ hv)
    exact ⟨g :: gs, rfl⟩

theorem exists_pathText (h : checkChars cs = .ok ()) : ∃ gs : List Segment, gs ≠ [] ∧ cs = pathText gs := by
  obtain ⟨rest, rfl, hall⟩ := checkChars_eq_ok.mp h
  obtain ⟨gs, hgs⟩ := exists_map_text hall
  refine ⟨gs, ?_, ?_⟩
  · rintro rfl
    exact segments_ne_nil hgs
  · rw [← flatMap_segments (d := 0), hgs, List.flatMap_map]
    rfl

/-- Only the segments before the last have to be plain: no slash follows the last. -/
theorem forall_isSegment_pathText :
    (∀ w ∈ segments 0 (g.text ++ pathText gs), isSegment w = true) ↔ ∀ h ∈ (g :: gs).dropLast, h.Plain := by
  induction gs generalizing g with
  | nil =>
    rw [show g.text ++ pathText [] = g.text from List.append_nil _, segments_text]
    simpa using isSegment_iff.mpr ⟨g, rfl⟩
  | cons k gs ih =>
    rw [show pathText (k :: gs) = '/' :: (k.text ++ pathText gs) from rfl]
    by_cases hplain : g.Plain
    · rw [segments_plain hplain, List.forall_mem_cons, ih, List.dropLast_cons_cons, List.forall_mem_cons]
      exact and_congr (iff_of_true (isSegment_iff.mpr ⟨g, rfl⟩) hplain) Iff.rfl
    · obtain ⟨w, ws, hsplit⟩ := segments_not_plain hplain (k.text ++ pathText gs)
      rw [hsplit]
      -- The first piece runs on over the slash, and no segment does.
      refine iff_of_false (fun h => ?_) fun h => hplain (h g List.mem_cons_self)
      have hslash := h _ List.mem_cons_self
      rw [not_isSegment_slash] at hslash
      cases hslash

theorem checkChars_pathText (hne : gs ≠ []) :
    checkChars (pathText gs) = .ok () ↔ ∀ g ∈ gs.dropLast, g.Plain := by
  obtain ⟨g, gs, rfl⟩ := List.exists_cons_of_ne_nil hne
  rw [← forall_isSegment_pathText, checkChars_eq_ok]
  constructor
  · rintro ⟨rest, hrest, hall⟩
    cases hrest
    exact hall
  · exact fun hall => ⟨_, rfl, hall⟩

/-- A path is accepted exactly when it is a path of the grammar without an opening bracket in the
values of the segments before the last. So a segment can be appended to an accepted path exactly
when there is no opening bracket in any of its values. -/
theorem accepted_exactly (s : String) :
    (check s = .ok () ↔ ∃ gs : List Segment, gs ≠ [] ∧ s.toList = pathText gs ∧ ∀ g ∈ gs.dropLast, g.Plain) ∧
    ∀ gs : List Segment, gs ≠ [] → s.toList = pathText gs →
      (check s = .ok () ↔ ∀ g ∈ gs.dropLast, g.Plain) ∧
      ∀ g : Segment, check (s ++ "/" ++ String.ofList g.text) = .ok () ↔ ∀ h ∈ gs, h.Plain := by
  have hcheck {t : String} {ks : List Segment} (hne : ks ≠ []) (htext : t.toList = pathText ks) :
      check t = .ok () ↔ ∀ g ∈ ks.dropLast, g.Plain := by
    rw [check, htext]
    exact checkChars_pathText hne
  refine ⟨⟨fun h => ?_, ?_⟩, fun gs hne htext => ⟨hcheck hne htext, fun g => ?_⟩⟩
  · obtain ⟨gs, hne, htext⟩ := exists_pathText h
    exact ⟨gs, hne, htext, (hcheck hne htext).mp h⟩
  · rintro ⟨gs, hne, htext, hplain⟩
    exact (hcheck hne htext).mpr hplain
  · have happended : (s ++ "/" ++ String.ofList g.text).toList = pathText (gs ++ [g]) := by
      simp [htext, pathText]
    rw [hcheck (List.concat_ne_nil g gs) happended, List.dropLast_concat]

/-- A slash in a value of the first segment and an opening bracket in one of the second. -/
theorem accepted_exactly_bracket_last :
    check "/m:a[k=x/y]/b[k=x[y]" = .ok () ∧ check "/m:a[k=x/y]/b[k=x[y]/c" ≠ .ok () := by
  have h := (accepted_exactly "/m:a[k=x/y]/b[k=x[y]").2
    [⟨some (.single 'm' rfl), .single 'a' rfl, [⟨.single 'k' rfl, "x/y".toList, by decide⟩]⟩,
      ⟨none, .single 'b' rfl, [⟨.single 'k' rfl, "x[y".toList, by decide⟩]⟩] nofun (by decide)
  refine ⟨h.1.mpr (by decide), fun happended => ?_⟩
  exact absurd ((h.2 ⟨none, .single 'c' rfl, []⟩).mp happended) (by decide)

/-- A path of the grammar that is not accepted, although it is an accepted path and a segment more. -/
theorem bracket_before_last_rejected :
    (∃ gs : List Segment, gs ≠ [] ∧ "/a[k=x[y]/b".toList = pathText gs) ∧ check "/a[k=x[y]" = .ok () ∧
    check "/a[k=x[y]/b" = .error (.malformedSegment "a[k=x[y]/b") ∧
    ¬ ∀ s, check s = .ok () ↔ ∃ gs : List Segment, gs ≠ [] ∧ s.toList = pathText gs := by
  have hgrammar : ∃ gs : List Segment, gs ≠ [] ∧ "/a[k=x[y]/b".toList = pathText gs :=
    ⟨[⟨none, .single 'a' rfl, [⟨.single 'k' rfl, "x[y".toList, by decide⟩]⟩, ⟨none, .single 'b' rfl, []⟩],
      nofun, by decide⟩
  have hcheck : check "/a[k=x[y]/b" = .error (.malformedSegment "a[k=x[y]/b") := by rfl
  refine ⟨hgrammar, rfl, hcheck, fun hclaim => ?_⟩
  have haccepted := (hclaim "/a[k=x[y]/b").mpr hgrammar
  rw [hcheck] at haccepted
  cases haccepted

end RouteProgramming.SchemaPath
