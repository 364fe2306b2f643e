import RouteProgramming.Profile
import RouteProgramming.Proofs.SchemaPath.Grammar
import RouteProgramming.Proofs.Text.Digits

/-! Coverage as an order. Without their predicates the segments of an accepted
path are the names on the way to a node, and one path covers another exactly
when its names are the first of the other's: names that begin alike, slashes
and brackets in predicates and modules do not mislead the comparison of the
texts. So the paths that a device lacks are those with no supported path on
their way, and more support, or support higher up, never adds to them. -/

namespace RouteProgramming

namespace SchemaPath

open Text

variable {c : Char} {cs v w : List Char} {g : Segment} {gs : List Segment} {d e : Nat} {s p q : String}

/-- The names on the way to the node of a path: its segments without their predicates. -/
def lineage (path : String) : List (List Char) := (segments 0 (path.toList.drop 1)).map (·.takeWhile (· != '['))

/-- The text of a path without predicates. -/
def joined (ws : List (List Char)) : List Char := ws.flatMap ('/' :: ·)

theorem joined_cons (w : List Char) (ws : List (List Char)) : joined (w :: ws) = '/' :: (w ++ joined ws) := rfl

theorem joined_append (vs ws : List (List Char)) : joined (vs ++ ws) = joined vs ++ joined ws := List.flatMap_append

theorem stops_joined (ws : List (List Char)) : Stops (· != '/') (joined ws) := by
  cases ws with
  | nil => exact Stops.nil _
  | cons w ws => exact Stops.cons rfl _

/-! ### The name of a segment -/

theorem Segment.mem_head (h : c ∈ g.head) : isNameChar c = true ∨ c = ':' := by
  rw [head] at h
  split at h
  case h_1 => exact .inl (Name.isNameChar_of_mem h)
  case h_2 =>
    rcases List.mem_append.mp h with h | h
    · exact .inl (Name.isNameChar_of_mem h)
    · exact (List.mem_cons.mp h).elim .inr fun h => .inl (Name.isNameChar_of_mem h)

theorem Segment.notMem_head (hname : isNameChar c = false) (hcolon : c ≠ ':') : c ∉ g.head := by
  intro h
  rcases g.mem_head h with h | h
  · rw [hname] at h
    cases h
  · exact hcolon h

theorem Segment.slash_notMem_head : '/' ∉ g.head := notMem_head (by decide) (by decide)

theorem Segment.bracket_notMem_head : '[' ∉ g.head ∧ ']' ∉ g.head :=
  ⟨notMem_head (by decide) (by decide), notMem_head (by decide) (by decide)⟩

theorem Segment.head_ne_nil : g.head ≠ [] := by
  rw [head]
  cases g.qualifier with
  | none => exact List.cons_ne_nil _ _
  | some m => exact List.cons_ne_nil _ _

/-- The name of a segment ends at the first bracket. -/
theorem Segment.takeWhile_text : g.text.takeWhile (· != '[') = g.head := by
  have hstop : Stops (· != '[') (g.predicates.flatMap Predicate.text) := by
    cases g.predicates with
    | nil => exact Stops.nil _
    | cons r rs => exact Stops.cons rfl _
  refine hstop.takeWhile_append fun c hc => ?_
  exact bne_iff_ne.mpr (ne_of_mem_of_not_mem hc g.bracket_notMem_head.1)

/-! ### What stands outside brackets -/

theorem outside_append (d : Nat) (v w : List Char) :
    outside d (v ++ w) = outside d v ++ outside (v.foldl nesting d) w := by
  induction v generalizing d with
  | nil => rfl
  | cons c v ih =>
    simp only [List.cons_append, outside, List.foldl_cons, ih]
    split <;> rfl

theorem Whole.foldl_nesting (h : Whole d w e) : w.foldl nesting d = e := by
  induction h with
  | nil => rfl
  | cons _ _ ih => exact ih

theorem outside_of_no_bracket (hopen : '[' ∉ w) (hclose : ']' ∉ w) : outside 0 w = w := by
  induction w with
  | nil => rfl
  | cons c w ih =>
    rw [List.mem_cons, not_or] at hopen hclose
    have hkeep : c ≠ '[' ∧ c ≠ ']' ∧ 0 = 0 := ⟨Ne.symm hopen.1, Ne.symm hclose.1, rfl⟩
    rw [outside, if_pos hkeep, nesting, if_neg hkeep.1, if_neg hkeep.2.1, ih hopen.2 hclose.2]

theorem outside_of_no_closing (hd : 0 < d) (hclose : ']' ∉ w) : outside d w = [] := by
  induction w generalizing d with
  | nil => rfl
  | cons c w ih =>
    rw [List.mem_cons, not_or] at hclose
    have hdeeper : 0 < nesting d c := by
      rw [nesting, if_neg (Ne.symm hclose.1)]
      split
      · exact Nat.succ_pos d
      · exact hd
    have hdrop : ¬ (c ≠ '[' ∧ c ≠ ']' ∧ d = 0) := fun h => Nat.ne_of_gt hd h.2.2
    rw [outside, if_neg hdrop, ih hdeeper hclose.2]

/-- A predicate is left out at any depth, also where an opening bracket in a value has raised it for good. -/
theorem outside_predicate (d : Nat) (r : Predicate) : outside d r.text = [] := by
  have hinner : ']' ∉ r.key.text ++ '=' :: r.value := by
    rw [List.mem_append, List.mem_cons, not_or, not_or]
    exact ⟨fun h => absurd (Name.isNameChar_of_mem h) (by decide), by decide, r.value_open⟩
  have htext : r.text = ['['] ++ ((r.key.text ++ '=' :: r.value) ++ [']']) := by simp [Predicate.text]
  have hopen : outside d ['['] = [] := rfl
  have hlast (k : Nat) : outside k [']'] = [] := rfl
  have hraise : ['['].foldl nesting d = d + 1 := rfl
  rw [htext, outside_append, outside_append, hopen, hlast, hraise, outside_of_no_closing (Nat.succ_pos d) hinner]
  rfl

theorem outside_predicates (d : Nat) (rs : List Predicate) : outside d (rs.flatMap Predicate.text) = [] := by
  induction rs generalizing d with
  | nil => rfl
  | cons r rs ih => rw [List.flatMap_cons, outside_append, outside_predicate, ih, List.append_nil]

theorem outside_text : outside 0 g.text = g.head := by
  rw [Segment.text, outside_append, outside_of_no_bracket g.bracket_notMem_head.1 g.bracket_notMem_head.2,
    outside_predicates, List.append_nil]

/-- The schema of an accepted path is its names. -/
theorem outside_pathText (plain : ∀ g ∈ gs.dropLast, g.Plain) :
    outside 0 (pathText gs) = joined (gs.map Segment.head) := by
  induction gs with
  | nil => rfl
  | cons g gs ih =>
    have hslash : outside 0 (pathText (g :: gs)) = '/' :: outside 0 (g.text ++ pathText gs) := rfl
    rw [hslash, outside_append, outside_text, Whole.segment.foldl_nesting, List.map_cons, joined_cons]
    cases gs with
    | nil => rfl
    | cons k gs =>
      rw [List.dropLast_cons_cons, List.forall_mem_cons] at plain
      rw [Segment.excess_eq_zero.mpr plain.1, ih plain.2]

/-! ### Segments of an accepted path -/

theorem segments_pathText (plain : ∀ h ∈ (g :: gs).dropLast, h.Plain) :
    segments 0 (g.text ++ pathText gs) = (g :: gs).map Segment.text := by
  induction gs generalizing g with
  | nil =>
    rw [show g.text ++ pathText [] = g.text from List.append_nil _, segments_text]
    rfl
  | cons k gs ih =>
    rw [List.dropLast_cons_cons, List.forall_mem_cons] at plain
    rw [show pathText (k :: gs) = '/' :: (k.text ++ pathText gs) from rfl, segments_plain plain.1, ih plain.2]
    rfl

/-- What is known of an accepted path that is read as some segments. -/
theorem plain_of_accepted (hs : check s = .ok ()) (hgs : s.toList = pathText gs) :
    gs ≠ [] ∧ ∀ g ∈ gs.dropLast, g.Plain := by
  rw [check, hgs] at hs
  have hne : gs ≠ [] := by
    rintro rfl
    cases hs
  exact ⟨hne, (checkChars_pathText hne).mp hs⟩

theorem lineage_eq (hs : check s = .ok ()) (hgs : s.toList = pathText gs) : lineage s = gs.map Segment.head := by
  obtain ⟨hne, hplain⟩ := plain_of_accepted hs hgs
  obtain ⟨g, gs, rfl⟩ := List.exists_cons_of_ne_nil hne
  have hrest : (pathText (g :: gs)).drop 1 = g.text ++ pathText gs := rfl
  rw [lineage, hgs, hrest, segments_pathText hplain, List.map_map]
  exact List.map_congr_left fun _ _ => Segment.takeWhile_text

/-! ### Comparing the texts -/

theorem isWithin_iff : isWithin v w ↔ ∃ t, w = v ++ t ∧ Stops (· != '/') t := by
  rw [isWithin, Bool.and_eq_true, List.isPrefixOf_iff_prefix]
  constructor
  · rintro ⟨⟨t, rfl⟩, hnext⟩
    refine ⟨t, rfl, fun c hc => ?_⟩
    rw [List.drop_left, Option.all_eq_true] at hnext
    exact bne_eq_false_iff_eq.mpr (beq_iff_eq.mp (hnext c hc))
  · rintro ⟨t, rfl, hstop⟩
    refine ⟨List.prefix_append v t, ?_⟩
    rw [List.drop_left, Option.all_eq_true]
    exact fun c hc => beq_iff_eq.mpr (bne_eq_false_iff_eq.mp (hstop c hc))

/-- Between two slashes the whole name is compared. -/
theorem isWithin_joined_iff {vs ws : List (List Char)} (hvs : ∀ v ∈ vs, '/' ∉ v) (hws : ∀ w ∈ ws, '/' ∉ w) :
    isWithin (joined vs) (joined ws) ↔ vs <+: ws := by
  rw [isWithin_iff]
  constructor
  · rintro ⟨t, htext, hstop⟩
    induction vs generalizing ws with
    | nil => exact List.nil_prefix
    | cons v vs ih =>
      cases ws with
      | nil => cases htext
      | cons w ws =>
        rw [List.forall_mem_cons] at hvs hws
        rw [joined_cons, joined_cons, List.cons_append, List.cons.injEq, and_iff_right rfl, List.append_assoc] at htext
        have hnext : Stops (· != '/') (joined vs ++ t) := by
          cases vs with
          | nil => exact hstop
          | cons u us => exact Stops.cons rfl _
        have hfree {u : List Char} (h : '/' ∉ u) : ∀ c ∈ u, (c != '/') = true :=
          fun c hc => bne_iff_ne.mpr (ne_of_mem_of_not_mem hc h)
        have hname : w = v := by
          have htake := congrArg (List.takeWhile (· != '/')) htext
          rwa [(stops_joined ws).takeWhile_append (hfree hws.1), hnext.takeWhile_append (hfree hvs.1)] at htake
        have hrest : joined ws = joined vs ++ t := by
          have hdrop := congrArg (List.dropWhile (· != '/')) htext
          rwa [(stops_joined ws).dropWhile_append (hfree hws.1), hnext.dropWhile_append (hfree hvs.1)] at hdrop
        rw [hname]
        exact List.cons_prefix_cons.mpr ⟨rfl, ih hvs.2 hws.2 hrest⟩
  · rintro ⟨us, rfl⟩
    exact ⟨joined us, joined_append vs us, stops_joined us⟩

theorem trimSlashes_concat (h : c ≠ '/') : trimSlashes (cs ++ [c]) = cs ++ [c] := by
  simp [trimSlashes, h]

theorem trimSlashes_joined (gs : List Segment) :
    trimSlashes (joined (gs.map Segment.head)) = joined (gs.map Segment.head) := by
  rcases List.eq_nil_or_concat gs with rfl | ⟨front, g, rfl⟩
  · rfl
  · obtain ⟨name, last, hhead⟩ := (List.eq_nil_or_concat g.head).resolve_left g.head_ne_nil
    have hlast : last ≠ '/' := by
      rintro rfl
      exact g.slash_notMem_head (by simp [hhead])
    have htext : joined ((front.concat g).map Segment.head) =
        (joined (front.map Segment.head) ++ '/' :: name) ++ [last] := by
      simp [joined, hhead]
    rw [htext, trimSlashes_concat hlast]

theorem covers_iff_heads {ks : List Segment} (hs : check s = .ok ()) (hp : check p = .ok ())
    (hgs : s.toList = pathText gs) (hks : p.toList = pathText ks) :
    covers s p ↔ gs.map Segment.head <+: ks.map Segment.head := by
  have hfree (ks : List Segment) : ∀ w ∈ ks.map Segment.head, '/' ∉ w := by
    intro w hw
    obtain ⟨k, -, rfl⟩ := List.mem_map.mp hw
    exact k.slash_notMem_head
  rw [covers, hgs, hks, outside_pathText (plain_of_accepted hs hgs).2, outside_pathText (plain_of_accepted hp hks).2,
    trimSlashes_joined, isWithin_joined_iff (hfree gs) (hfree ks)]

/-- A path covers those whose first names are its names. -/
theorem covers_iff (hs : check s = .ok ()) (hp : check p = .ok ()) : covers s p ↔ lineage s <+: lineage p := by
  obtain ⟨gs, -, hgs⟩ := exists_pathText hs
  obtain ⟨ks, -, hks⟩ := exists_pathText hp
  rw [covers_iff_heads hs hp hgs hks, lineage_eq hs hgs, lineage_eq hp hks]

theorem covers_trans (hs : check s = .ok ()) (hp : check p = .ok ()) (hq : check q = .ok ()) (hsp : covers s p)
    (hpq : covers p q) : covers s q :=
  (covers_iff hs hq).mpr (((covers_iff hs hp).mp hsp).trans ((covers_iff hp hq).mp hpq))

end SchemaPath

/-! ### The paths that a device lacks -/

/-- Nothing is reported that the other report does not have, not even once more. -/
structure SupportReport.Within (r r' : SupportReport) : Prop where
  config : r.unsupportedConfig.Sublist r'.unsupportedConfig
  telemetry : r.unsupportedTelemetry.Sublist r'.unsupportedTelemetry

namespace Profile

open SchemaPath (covers lineage covers_iff)

variable {S T paths : List String}

/-- The paths with no supported path on their way. -/
theorem uncovered_eq (hS : ∀ s ∈ S, SchemaPath.check s = .ok ()) (hpaths : ∀ p ∈ paths, SchemaPath.check p = .ok ()) :
    uncovered S paths = paths.filter fun p => ∀ s ∈ S, ¬ lineage s <+: lineage p := by
  refine List.filter_congr fun p hp => ?_
  rw [Bool.eq_iff_iff, Bool.not_eq_true', List.any_eq_false, decide_eq_true_iff]
  exact forall₂_congr fun s hs => not_congr (covers_iff (hS s hs) (hpaths p hp))

/-- Support that covers at least as much leaves no more paths uncovered. -/
theorem uncovered_sublist (h : ∀ p ∈ paths, ∀ s ∈ S, covers s p → ∃ t ∈ T, covers t p) :
    (uncovered T paths).Sublist (uncovered S paths) := by
  have hagain : uncovered T paths = uncovered T (uncovered S paths) := by
    rw [uncovered, uncovered, uncovered, List.filter_filter]
    refine List.filter_congr fun p hp => ?_
    rw [eq_comm, Bool.and_eq_left_iff_imp, Bool.not_eq_true', List.any_eq_false, Bool.not_eq_true', List.any_eq_false]
    intro hnone s hs hcovers
    obtain ⟨t, ht, hcovers⟩ := h p hp s hs hcovers
    exact hnone t ht hcovers
  rw [hagain]
  exact List.filter_sublist

theorem support_within {profile : Profile}
    (h : ∀ p ∈ profile.configPaths ++ profile.telemetryPaths, ∀ s ∈ S, covers s p → ∃ t ∈ T, covers t p) :
    (profile.support T).Within (profile.support S) where
  config := uncovered_sublist fun p hp => h p (List.mem_append_left _ hp)
  telemetry := uncovered_sublist fun p hp => h p (List.mem_append_right _ hp)

end Profile

namespace SchemaPath

/-- Coverage of accepted paths is the order of ancestors: the names of the one are the first of the other's. A report of
support has the paths with no supported ancestor or self, as they stand in the profile, and neither more support nor an
ancestor in the place of a supported path adds to it. -/
theorem ancestors_cover :
    (∀ s gs, check s = .ok () → s.toList = pathText gs → lineage s = gs.map Segment.head) ∧
    (∀ s p, check s = .ok () → check p = .ok () → (covers s p ↔ lineage s <+: lineage p)) ∧
    (∀ s, check s = .ok () → covers s s) ∧
    (∀ s p q, check s = .ok () → check p = .ok () → check q = .ok () → covers s p → covers p q → covers s q) ∧
    (∀ s p, check s = .ok () → check p = .ok () → (covers s p ∧ covers p s ↔ lineage s = lineage p)) ∧
    ∀ (profile : Profile) (S : List String),
      (∀ p ∈ profile.configPaths ++ profile.telemetryPaths, check p = .ok ()) → (∀ s ∈ S, check s = .ok ()) →
      profile.support S =
        { profile := profile.id
          unsupportedConfig := profile.configPaths.filter fun p => ∀ s ∈ S, ¬ lineage s <+: lineage p
          unsupportedTelemetry := profile.telemetryPaths.filter fun p => ∀ s ∈ S, ¬ lineage s <+: lineage p } ∧
      (∀ T, S ⊆ T → (profile.support T).Within (profile.support S)) ∧
      ∀ q ∈ S, ∀ a, check a = .ok () → lineage a <+: lineage q →
        (profile.support (a :: S.filter (· ≠ q))).Within (profile.support S) := by
  refine ⟨fun s gs => lineage_eq, fun s p => covers_iff, fun s hs => (covers_iff hs hs).mpr (List.prefix_refl _),
    fun s p q => covers_trans, fun s p hs hp => ?_, fun profile S hprofile hS => ⟨?_, fun T hT => ?_, ?_⟩⟩
  · rw [covers_iff hs hp, covers_iff hp hs]
    exact ⟨fun h => h.1.eq_of_length_le h.2.length_le, fun h => by simp [h]⟩
  · rw [Profile.support, Profile.uncovered_eq hS fun p hp => hprofile p (List.mem_append_left _ hp),
      Profile.uncovered_eq hS fun p hp => hprofile p (List.mem_append_right _ hp)]
  · exact Profile.support_within fun p _ s hs hcovers => ⟨s, hT hs, hcovers⟩
  · intro q hq a ha habove
    refine Profile.support_within fun p hp s hs hcovers => ?_
    by_cases hsame : s = q
    · subst hsame
      have hcovered := covers_trans ha (hS s hs) (hprofile p hp) ((covers_iff ha (hS s hs)).mpr habove) hcovers
      exact ⟨a, List.mem_cons_self, hcovered⟩
    · exact ⟨s, List.mem_cons_of_mem a (List.mem_filter.mpr ⟨hs, decide_eq_true hsame⟩), hcovers⟩

/-- Names that begin alike, a slash and brackets in values, a module, and a path that is listed twice. -/
def neighbours : Profile where
  id := ⟨"neighbours", 1⟩
  configPaths := ["/a/b[k=x/y]/c", "/a/bc", "/m:a/b", "/a/bc"]
  telemetryPaths := ["/a/b[k=x[y]"]
  dependencies := []

/-- Only the module of one supported path differs, and it is a level too deep; its parent covers one path more. -/
theorem ancestors_cover_neighbours :
    let S := ["/a/b[j=[/]", "/m:a/b/c"]
    (∀ p ∈ neighbours.configPaths ++ neighbours.telemetryPaths, check p = .ok ()) ∧ (∀ s ∈ S, check s = .ok ()) ∧
    covers "/a/b[j=[/]" "/a/b[k=x/y]/c" ∧ ¬ covers "/a/b[j=[/]" "/a/bc" ∧
    neighbours.support S = ⟨neighbours.id, ["/a/bc", "/m:a/b", "/a/bc"], []⟩ ∧
    (neighbours.support ("/m:a" :: S.filter (· ≠ "/m:a/b/c"))).Within (neighbours.support S) := by
  intro S
  have hprofile : ∀ p ∈ neighbours.configPaths ++ neighbours.telemetryPaths, check p = .ok () := by
    simp only [neighbours, List.cons_append, List.nil_append, List.forall_mem_cons]
    exact ⟨rfl, rfl, rfl, rfl, rfl, nofun⟩
  have hS : ∀ s ∈ S, check s = .ok () := by
    simp only [S, List.forall_mem_cons]
    exact ⟨rfl, rfl, nofun⟩
  obtain ⟨-, hcovers, -, -, -, hreports⟩ := ancestors_cover
  obtain ⟨hreport, -, hraised⟩ := hreports neighbours S hprofile hS
  have hfirst := hcovers "/a/b[j=[/]" "/a/b[k=x/y]/c" rfl rfl
  have hsecond := hcovers "/a/b[j=[/]" "/a/bc" rfl rfl
  refine ⟨hprofile, hS, hfirst.mpr (by decide), mt hsecond.mp (by decide), hreport.trans (by decide), ?_⟩
  exact hraised "/m:a/b/c" (by decide) "/m:a" rfl (by decide)

end SchemaPath

end RouteProgramming
