import RouteProgramming.Cidr
import RouteProgramming.Proofs.Text.Digits

/-! Addresses and prefixes are read back from their texts. A dotted address is
four runs of digits; of the colon-separated form each group is a run of
hexadecimal digits, and the run of zero groups that is left out is put back as
many groups as the others leave room for. -/

namespace RouteProgramming

open Text

/-! ### IPv4 -/

namespace Address.Text

theorem separated_cons {α : Type} (c : Char) (read : List Char → Option (α × List Char)) (cs : List Char) :
    separated false c read (c :: cs) = read cs := by
  simp [separated, expect]

theorem expect_eq_none {c : Char} {cs : List Char} (h : c ∉ cs) : expect c cs = none := by
  cases cs with
  | nil => rfl
  | cons d cs =>
    have hne : d ≠ c := by
      rintro rfl
      exact h List.mem_cons_self
    exact if_neg hne

theorem separated_eq_none {α : Type} {separator : Char} {cs : List Char} {read : List Char → Option (α × List Char)}
    (h : separator ∉ cs) : separated false separator read cs = none := by
  rw [separated, expect_eq_none h]
  rfl

theorem octet_render {n : Nat} (h : n < 256) {rest : List Char} (stops : Stops Char.isDigit rest) :
    octet (Decimal.render n ++ rest) = some (n, rest) := by
  have hdigits : ∀ c ∈ Decimal.render n, c.isDigit := fun c => Decimal.isDigit_of_mem_render
  have hlength : ¬3 < (Decimal.render n).length :=
    Nat.not_lt.2 (Decimal.length_render_le (k := 2) (Nat.lt_trans h (by decide)))
  simp [octet, stops.takeWhile_append hdigits, stops.dropWhile_append hdigits, Decimal.canonical?_render, hlength, h]

theorem group_render {n : Nat} (h : n < 65536) {rest : List Char} (stops : Stops Hexadecimal.isDigit rest) :
    group (Hexadecimal.render n ++ rest) = some (n, rest) := by
  have hdigits : ∀ c ∈ Hexadecimal.render n, Hexadecimal.isDigit c := fun c => Hexadecimal.isDigit_of_mem_render
  have hlength : ¬4 < (Hexadecimal.render n).length := Nat.not_lt.2 (Hexadecimal.length_render_le (k := 3) h)
  simp [group, stops.takeWhile_append hdigits, stops.dropWhile_append hdigits, Hexadecimal.digits?_render, hlength]

theorem octet_eq_none {cs : List Char} (stops : Stops Char.isDigit cs) : octet cs = none := by
  have h : ([] ++ cs).takeWhile _ = [] := stops.takeWhile_append nofun
  rw [List.nil_append] at h
  simp [octet, h, Decimal.canonical?, Decimal.digits?]

theorem group_eq_none {cs : List Char} (stops : Stops Hexadecimal.isDigit cs) : group cs = none := by
  have h : ([] ++ cs).takeWhile _ = [] := stops.takeWhile_append nofun
  rw [List.nil_append] at h
  simp [group, h, Hexadecimal.digits?]

end Address.Text

namespace Ipv4

open Address.Text

theorem ofOctets_octets (a : Ipv4) :
    ofOctets (a.toNat / 16777216) (a.toNat / 65536 % 256) (a.toNat / 256 % 256) (a.toNat % 256) = a := by
  have hsum : ((a.toNat / 16777216 * 256 + a.toNat / 65536 % 256) * 256 + a.toNat / 256 % 256) * 256 + a.toNat % 256 =
      a.toNat := by omega
  rw [ofOctets, hsum, ofNat, toNat, BitVec.ofNat_toNat, BitVec.setWidth_eq]

theorem render_eq (a : Ipv4) :
    a.render = Decimal.render (a.toNat / 16777216) ++ '.' :: (Decimal.render (a.toNat / 65536 % 256) ++
      '.' :: (Decimal.render (a.toNat / 256 % 256) ++ '.' :: Decimal.render (a.toNat % 256))) := by
  simp [render, octets, List.intercalate]

theorem read_render (a : Ipv4) {rest : List Char} (stops : Stops Char.isDigit rest) :
    read (a.render ++ rest) = some (a, rest) := by
  have hdot : ∀ cs, Stops Char.isDigit ('.' :: cs) := Stops.cons rfl
  have hfirst : a.toNat / 16777216 < 256 := by
    have := a.bits.isLt
    rw [toNat]
    omega
  have hbyte : ∀ n, n % 256 < 256 := fun n => Nat.mod_lt n (by decide)
  simp only [read, render_eq, List.append_assoc, List.cons_append, octet_render hfirst (hdot _),
    octet_render (hbyte _) (hdot _), octet_render (hbyte _) stops, separated_cons, Option.bind_eq_bind,
    Option.bind_some, ofOctets_octets]

theorem mem_render {a : Ipv4} {c : Char} (h : c ∈ a.render) : c.isDigit ∨ c = '.' := by
  have hdigit : ∀ n, c ∈ Decimal.render n → c.isDigit := fun _ => Decimal.isDigit_of_mem_render
  simp only [render_eq, List.mem_append, List.mem_cons] at h
  grind

theorem ofChars?_render (a : Ipv4) : ofChars? a.render = some a := by
  have h := a.read_render (Stops.nil _)
  rw [List.append_nil] at h
  rw [ofChars?, h]

theorem parse_text (a : Ipv4) : parse a.text = .ok a := by
  rw [parse, text, String.toList_ofList, ofChars?_render]

theorem octet_rest {cs rest : List Char} {n : Nat} (h : octet cs = some (n, rest)) :
    rest = cs.dropWhile Char.isDigit := by
  simp only [octet, Option.bind_eq_bind] at h
  split at h
  · contradiction
  · obtain ⟨m, -, hm⟩ := Option.bind_eq_some_iff.1 h
    split at hm
    · cases hm
      rfl
    · contradiction

theorem octet_suffix {cs rest : List Char} {n : Nat} (h : octet cs = some (n, rest)) : rest <:+ cs :=
  octet_rest h ▸ List.dropWhile_suffix _

/-- A text without a point has no dotted address in it. -/
theorem read_eq_none {cs : List Char} (h : '.' ∉ cs) : read cs = none := by
  rw [read, Option.bind_eq_bind, Option.bind_eq_none_iff]
  rintro ⟨n, rest⟩ hread
  have hrest : '.' ∉ rest := fun hmem => h ((octet_suffix hread).subset hmem)
  have hstop : separated false '.' octet rest = none := separated_eq_none hrest
  simp [hstop]

end Ipv4

/-! ### IPv6 -/

namespace Ipv6

open Address.Text

/-- The digits of `n` in base 65536, `k` of them, read back as far as they go. -/
theorem foldl_groups (n k : Nat) :
    ((List.range k).map (fun i => n / Nat.pow 65536 (k - 1 - i) % 65536)).foldl (fun n g => n * 65536 + g) 0 =
      n % Nat.pow 65536 k := by
  induction k generalizing n with
  | zero => simp [Nat.mod_one]
  | succ k ih =>
    have hsplit : (List.range (k + 1)).map (fun i => n / Nat.pow 65536 (k + 1 - 1 - i) % 65536) =
        (List.range k).map (fun i => n / 65536 / Nat.pow 65536 (k - 1 - i) % 65536) ++ [n % 65536] := by
      rw [List.range_succ, List.map_append]
      congr 1
      · refine List.map_congr_left fun i hi => ?_
        have hi' : k + 1 - 1 - i = (k - 1 - i) + 1 := by have := List.mem_range.1 hi; omega
        rw [hi', Nat.div_div_eq_div_mul, Nat.mul_comm]
        rfl
      · simp
    have hpow : Nat.pow 65536 (k + 1) = 65536 * Nat.pow 65536 k := Nat.pow_succ'
    rw [hsplit, List.foldl_append, ih, List.foldl_cons, List.foldl_nil, hpow, Nat.mod_mul]
    omega

theorem ofGroups_groups (a : Ipv6) : ofGroups a.groups = a := by
  have hlt : a.toNat < Nat.pow 65536 8 := a.bits.isLt
  rw [ofGroups, groups, foldl_groups a.toNat 8, Nat.mod_eq_of_lt hlt, ofNat, toNat, BitVec.ofNat_toNat,
    BitVec.setWidth_eq]

theorem length_groups (a : Ipv6) : a.groups.length = 8 := rfl

theorem lt_of_mem_groups {a : Ipv6} {g : Nat} (h : g ∈ a.groups) : g < 65536 := by
  obtain ⟨i, -, rfl⟩ := List.mem_map.1 h
  exact Nat.mod_lt _ (by decide)

/-! #### Runs of groups -/

/-- A text at which a run of groups ends. -/
inductive EndsRun : List Char → Prop
  | nil : EndsRun []
  | gap (cs : List Char) (noPoint : '.' ∉ cs) : EndsRun (':' :: ':' :: cs)

/-- Groups with a colon before each. -/
def following (gs : List Nat) : List Char := gs.flatMap (fun g => ':' :: Hexadecimal.render g)

theorem renderGroups_cons (g : Nat) (gs : List Nat) :
    renderGroups (g :: gs) = Hexadecimal.render g ++ following gs := by
  induction gs generalizing g with
  | nil => simp [renderGroups, following, List.intercalate]
  | cons g' gs ih =>
    have h := ih g'
    simp only [renderGroups, List.intercalate, List.map_cons, List.intersperse_cons_cons, List.flatten_cons] at h ⊢
    rw [h]
    simp [following]

theorem mem_render_ne_point {g : Nat} {c : Char} (h : c ∈ Hexadecimal.render g) : c ≠ '.' ∧ c ≠ ':' := by
  have hd := Hexadecimal.isDigit_of_mem_render h
  constructor
  · rintro rfl
    exact absurd hd (by decide)
  · rintro rfl
    exact absurd hd (by decide)

theorem EndsRun.noPoint {cs : List Char} (h : EndsRun cs) : '.' ∉ cs := by
  cases h with
  | nil => exact nofun
  | gap cs noPoint => simp [noPoint]

theorem EndsRun.stops {cs : List Char} (h : EndsRun cs) : Stops Hexadecimal.isDigit cs := by
  cases h with
  | nil => exact Stops.nil _
  | gap cs _ => exact Stops.cons (by decide) _

theorem following_noPoint {gs : List Nat} {cs : List Char} (h : '.' ∉ cs) : '.' ∉ following gs ++ cs := by
  intro hmem
  rcases List.mem_append.1 hmem with hmem | hmem
  · obtain ⟨g, -, hg⟩ := List.mem_flatMap.1 hmem
    rcases List.mem_cons.1 hg with he | hg
    · exact absurd he (by decide)
    · exact (mem_render_ne_point hg).1 rfl
  · exact h hmem

theorem following_stops (gs : List Nat) {cs : List Char} (h : Stops Hexadecimal.isDigit cs) :
    Stops Hexadecimal.isDigit (following gs ++ cs) := by
  cases gs with
  | nil => exact h
  | cons g gs => exact Stops.cons (by decide) _

theorem readGroups_end {cs : List Char} (h : EndsRun cs) (left : Nat) (first : Bool) :
    readGroups left first cs = ([], false, cs) := by
  have hpoint : separated first ':' Ipv4.read cs = none := by
    cases first with
    | true => exact Ipv4.read_eq_none h.noPoint
    | false =>
      cases h with
      | nil => rfl
      | gap cs noPoint =>
        rw [separated_cons]
        exact Ipv4.read_eq_none (by simp [noPoint])
  have hgroup : separated first ':' group cs = none := by
    cases first with
    | true => exact group_eq_none h.stops
    | false =>
      cases h with
      | nil => rfl
      | gap cs noPoint =>
        rw [separated_cons]
        exact group_eq_none (Stops.cons (by decide) _)
  cases left with
  | zero => rfl
  | succ left => rw [readGroups, hpoint, hgroup, ite_self]

theorem readGroups_succ {left g : Nat} {first : Bool} {cs rest rest' : List Char} {gs : List Nat}
    (noPoint : separated first ':' Ipv4.read cs = none) (one : separated first ':' group cs = some (g, rest))
    (more : readGroups left false rest = (gs, false, rest')) :
    readGroups (left + 1) first cs = (g :: gs, false, rest') := by
  rw [readGroups, noPoint, one, ite_self]
  simp only [more]

theorem readGroups_following {gs : List Nat} {left : Nat} {rest : List Char} (small : ∀ g ∈ gs, g < 65536)
    (fits : gs.length ≤ left) (h : EndsRun rest) :
    readGroups left false (following gs ++ rest) = (gs, false, rest) := by
  induction gs generalizing left with
  | nil => exact readGroups_end h left false
  | cons g gs ih =>
    obtain ⟨left, rfl⟩ := Nat.exists_eq_add_one_of_ne_zero (Nat.ne_of_gt (Nat.lt_of_lt_of_le (Nat.succ_pos _) fits))
    have htext : following (g :: gs) ++ rest = ':' :: (Hexadecimal.render g ++ (following gs ++ rest)) := by
      simp [following]
    have hpoint : '.' ∉ Hexadecimal.render g ++ (following gs ++ rest) := by
      have hall : '.' ∉ following (g :: gs) ++ rest := following_noPoint h.noPoint
      rw [htext] at hall
      exact fun hmem => hall (.tail _ hmem)
    rw [htext]
    refine readGroups_succ ?_ ?_ (ih (fun g hg => small g (.tail _ hg)) (Nat.le_of_succ_le_succ fits))
    · rw [separated_cons]
      exact Ipv4.read_eq_none hpoint
    · rw [separated_cons]
      exact group_render (small g (.head _)) (following_stops gs h.stops)

/-- The groups of a run are read up to its end, if there is room for them. -/
theorem readGroups_renderGroups {gs : List Nat} {left : Nat} {rest : List Char} (small : ∀ g ∈ gs, g < 65536)
    (fits : gs.length ≤ left) (h : EndsRun rest) :
    readGroups left true (renderGroups gs ++ rest) = (gs, false, rest) := by
  cases gs with
  | nil => exact readGroups_end h left true
  | cons g gs =>
    obtain ⟨left, rfl⟩ := Nat.exists_eq_add_one_of_ne_zero (Nat.ne_of_gt (Nat.lt_of_lt_of_le (Nat.succ_pos _) fits))
    have hfollowing : '.' ∉ following gs ++ rest := following_noPoint h.noPoint
    have hpoint : '.' ∉ Hexadecimal.render g ++ (following gs ++ rest) := by
      rw [List.mem_append]
      exact not_or.2 ⟨fun hmem => (mem_render_ne_point hmem).1 rfl, hfollowing⟩
    rw [renderGroups_cons, List.append_assoc]
    refine readGroups_succ (Ipv4.read_eq_none hpoint) (group_render (small g (.head _)) (following_stops gs h.stops)) ?_
    exact readGroups_following (fun g hg => small g (.tail _ hg)) (Nat.le_of_succ_le_succ fits) h

/-! #### The run that is left out -/

/-- A run of zeros among the groups, by its start and its length. -/
def IsZeroRun (gs : List Nat) (run : Nat × Nat) : Prop :=
  run.1 + run.2 ≤ gs.length ∧ (gs.drop run.1).take run.2 = List.replicate run.2 0

theorem longestZeros_isZeroRun (gs : List Nat) : IsZeroRun gs (longestZeros gs) := by
  have keeps : ∀ (starts : List Nat) (best : Nat × Nat), (∀ i ∈ starts, i < gs.length) → IsZeroRun gs best →
      IsZeroRun gs (starts.foldl (fun best i =>
        let run := ((gs.drop i).takeWhile (· == 0)).length
        if best.2 < run then (i, run) else best) best) := by
    intro starts
    induction starts with
    | nil => exact fun best _ h => h
    | cons i starts ih =>
      intro best hlt h
      rw [List.foldl_cons]
      refine ih _ (fun j hj => hlt j (.tail _ hj)) ?_
      dsimp only
      split
      · have hprefix := List.takeWhile_prefix (l := gs.drop i) (· == 0)
        refine ⟨?_, ?_⟩
        · have hlen := hprefix.length_le
          have := hlt i (.head _)
          rw [List.length_drop] at hlen
          dsimp only
          omega
        · rw [← List.prefix_iff_eq_take.1 hprefix]
          exact List.eq_replicate_of_mem fun g hg => beq_iff_eq.1 (List.all_eq_true.1 List.all_takeWhile g hg)
      · exact h
  exact keeps _ _ (fun i hi => List.mem_range.1 hi) ⟨Nat.zero_le _, rfl⟩

theorem IsZeroRun.split {gs : List Nat} {run : Nat × Nat} (h : IsZeroRun gs run) :
    gs.take run.1 ++ List.replicate run.2 0 ++ gs.drop (run.1 + run.2) = gs := by
  rw [← h.2, List.append_assoc, ← List.drop_drop, List.take_append_drop, List.take_append_drop]

/-! #### The whole text -/

/-- A wrapped address is the five zero groups, the group of ones and the two halves of what it wraps. -/
theorem ofGroups_mapped {a : Ipv6} {v4 : Ipv4} (h : a.mapped? = some v4) :
    ofGroups (List.replicate 5 0 ++ [65535, v4.toNat / 65536, v4.toNat % 65536]) = a := by
  rw [mapped?] at h
  split at h
  case isFalse => contradiction
  case isTrue hones =>
    cases h
    have hlow : (Ipv4.ofNat (a.toNat % 4294967296)).toNat = a.toNat % 4294967296 := by
      rw [Ipv4.toNat, Ipv4.ofNat, BitVec.toNat_ofNat, Nat.mod_mod]
    have hsum : (65535 * 65536 + a.toNat % 4294967296 / 65536) * 65536 + a.toNat % 4294967296 % 65536 = a.toNat := by
      omega
    rw [hlow, ofGroups]
    simp only [List.replicate, List.cons_append, List.nil_append, List.foldl_cons, List.foldl_nil, Nat.zero_mul,
      Nat.zero_add, hsum]
    rw [ofNat, toNat, BitVec.ofNat_toNat, BitVec.setWidth_eq]

theorem read_gap {left right : List Nat} (small : ∀ g ∈ left ++ right, g < 65536)
    (room : left.length + right.length < 8) :
    read (renderGroups left ++ ':' :: ':' :: renderGroups right) =
      some (ofGroups (left ++ List.replicate (8 - left.length - right.length) 0 ++ right), []) := by
  have hright : readGroups (7 - left.length) true (renderGroups right) = (right, false, []) := by
    rw [← List.append_nil (renderGroups right)]
    exact readGroups_renderGroups (fun g hg => small g (List.mem_append_right _ hg)) (by omega) .nil
  have hpoint : '.' ∉ renderGroups right := by
    cases right with
    | nil => exact nofun
    | cons g gs =>
      rw [renderGroups_cons, List.mem_append]
      have hrest : '.' ∉ following gs ++ [] := following_noPoint nofun
      rw [List.append_nil] at hrest
      exact not_or.2 ⟨fun hmem => (mem_render_ne_point hmem).1 rfl, hrest⟩
  have hleft := readGroups_renderGroups (fun g hg => small g (List.mem_append_left _ hg))
    (show left.length ≤ 8 by omega) (.gap _ hpoint)
  have hshort : left.length ≠ 8 := by omega
  simp [read, hleft, hshort, expect, hright]

theorem read_full {gs : List Nat} (small : ∀ g ∈ gs, g < 65536) (eight : gs.length = 8) :
    read (renderGroups gs) = some (ofGroups gs, []) := by
  have h : readGroups 8 true (renderGroups gs ++ []) = (gs, false, []) :=
    readGroups_renderGroups small (Nat.le_of_eq eight) .nil
  rw [List.append_nil] at h
  simp [read, h, eight]

theorem read_mapped (v4 : Ipv4) :
    read ("::ffff:".toList ++ v4.render) =
      some (ofGroups (List.replicate 5 0 ++ [65535, v4.toNat / 65536, v4.toNat % 65536]), []) := by
  have htext : "::ffff:".toList ++ v4.render = ':' :: ':' :: 'f' :: 'f' :: 'f' :: 'f' :: ':' :: v4.render := by
    simp
  have noOctet : ∀ (c : Char) (cs : List Char), c.isDigit = false → Ipv4.read (c :: cs) = none := by
    intro c cs hc
    simp [Ipv4.read, octet_eq_none (Stops.cons hc cs)]
  have hhead : ∀ cs, readGroups 8 true (':' :: ':' :: cs) = ([], false, ':' :: ':' :: cs) := by
    intro cs
    have hgroup : group (':' :: ':' :: cs) = none := group_eq_none (Stops.cons (by decide) _)
    simp [readGroups, separated, noOctet, hgroup]
  have hdotted : readGroups 6 false (':' :: v4.render) = ([v4.toNat / 65536, v4.toNat % 65536], true, []) := by
    have hread := v4.read_render (Stops.nil _)
    rw [List.append_nil] at hread
    simp [readGroups, separated_cons, hread]
  have htail : readGroups 7 true ('f' :: 'f' :: 'f' :: 'f' :: ':' :: v4.render) =
      ([65535, v4.toNat / 65536, v4.toNat % 65536], true, []) := by
    have hgroup : group ('f' :: 'f' :: 'f' :: 'f' :: ':' :: v4.render) = some (65535, ':' :: v4.render) := by
      have hstop : Stops Hexadecimal.isDigit (':' :: v4.render) := Stops.cons (by decide) _
      have hdigits : ∀ c ∈ ['f', 'f', 'f', 'f'], Hexadecimal.isDigit c := List.all_eq_true.1 rfl
      have hvalue : Hexadecimal.digits? ['f', 'f', 'f', 'f'] = some 65535 := rfl
      have htake := hstop.takeWhile_append hdigits
      have hdrop := hstop.dropWhile_append hdigits
      rw [List.cons_append, List.cons_append, List.cons_append, List.cons_append, List.nil_append] at htake hdrop
      simp [group, htake, hdrop, hvalue]
    rw [readGroups]
    simp [separated, noOctet, hgroup, hdotted]
  rw [htext]
  simp [read, hhead, expect, htail]

theorem ofChars?_render (a : Ipv6) : ofChars? a.render = some a := by
  have hread : read a.render = some (a, []) := by
    rw [render]
    split
    case h_1 v4 h => rw [read_mapped, ofGroups_mapped h]
    case h_2 =>
      have hrun := longestZeros_isZeroRun a.groups
      have hsplit := hrun.split
      generalize longestZeros a.groups = zeros at hrun hsplit ⊢
      obtain ⟨start, run⟩ := zeros
      dsimp only at hsplit ⊢
      split
      case isTrue hlong =>
        have hstart : start ≤ a.groups.length := Nat.le_trans (Nat.le_add_right _ _) hrun.1
        have hle : start + run ≤ 8 := hrun.1
        have hleft : (a.groups.take start).length = start := List.length_take_of_le hstart
        have hright : (a.groups.drop (start + run)).length = 8 - (start + run) := List.length_drop
        have htext : renderGroups (a.groups.take start) ++ "::".toList ++ renderGroups (a.groups.drop (start + run)) =
            renderGroups (a.groups.take start) ++ ':' :: ':' :: renderGroups (a.groups.drop (start + run)) := by
          simp
        have hgap : 8 - start - (8 - (start + run)) = run := by omega
        rw [htext, read_gap, hleft, hright, hgap, hsplit, ofGroups_groups]
        · intro g hg
          exact lt_of_mem_groups ((List.mem_append.1 hg).elim List.mem_of_mem_take List.mem_of_mem_drop)
        · omega
      case isFalse => rw [read_full (fun g => lt_of_mem_groups) a.length_groups, ofGroups_groups]
  rw [ofChars?, hread]

theorem parse_text (a : Ipv6) : parse a.text = .ok a := by
  rw [parse, text, String.toList_ofList, ofChars?_render]

theorem mem_renderGroups {gs : List Nat} {c : Char} (h : c ∈ renderGroups gs) :
    Hexadecimal.isDigit c ∨ c = ':' := by
  cases gs with
  | nil => contradiction
  | cons g gs =>
    rw [renderGroups_cons, List.mem_append] at h
    rcases h with h | h
    · exact .inl (Hexadecimal.isDigit_of_mem_render h)
    · obtain ⟨g', -, h⟩ := List.mem_flatMap.1 h
      exact (List.mem_cons.1 h).elim .inr fun h => .inl (Hexadecimal.isDigit_of_mem_render h)

theorem colon_mem_render (a : Ipv6) : ':' ∈ a.render := by
  rw [render]
  split
  · simp
  · obtain ⟨start, run⟩ := longestZeros a.groups
    dsimp only
    split
    · simp
    · rw [show a.groups = _ :: _ :: _ from rfl, renderGroups_cons]
      simp [following]

theorem slash_notMem_render (a : Ipv6) : '/' ∉ a.render := by
  have hgroups : ∀ gs, '/' ∉ renderGroups gs := by
    intro gs hmem
    exact absurd (mem_renderGroups hmem) (by decide)
  have hdotted : ∀ v4 : Ipv4, '/' ∉ v4.render := by
    intro v4 hmem
    exact absurd (v4.mem_render hmem) (by decide)
  rw [render]
  split
  · simp [hdotted]
  · obtain ⟨start, run⟩ := longestZeros a.groups
    dsimp only
    split <;> simp [hgroups]

end Ipv6

/-! ### Both families, and prefixes -/

namespace Address

theorem ofChars?_render (a : Address) : ofChars? a.render = some a := by
  cases a with
  | v4 a =>
    have hcolon : ':' ∉ a.render := fun hmem => absurd (a.mem_render hmem) (by decide)
    simp [render, ofChars?, hcolon, a.ofChars?_render]
  | v6 a => simp [render, ofChars?, a.colon_mem_render, a.ofChars?_render]

theorem parse_text (a : Address) : parse a.text = .ok a := by
  rw [parse, text, String.toList_ofList, ofChars?_render]

theorem slash_notMem_render (a : Address) : '/' ∉ a.render := by
  cases a with
  | v4 a => exact fun hmem => absurd (a.mem_render hmem) (by decide)
  | v6 a => exact a.slash_notMem_render

end Address

namespace Cidr

theorem length_lt (c : Cidr) : c.length < 256 := by
  have hwidth : c.address.width ≤ 128 := by cases c.address <;> simp [Address.width]
  exact Nat.lt_of_le_of_lt (Nat.le_trans c.length_le hwidth) (by decide)

theorem parse_text (c : Cidr) : parse c.text = .ok c := by
  have hpass : ∀ d ∈ c.address.render, (d != '/') = true := by
    intro d hd
    exact bne_iff_ne.2 fun he => c.address.slash_notMem_render (he ▸ hd)
  have hstop : Stops (· != '/') ('/' :: Decimal.render c.length) := Stops.cons rfl _
  rw [parse, text, String.toList_ofList, render, hstop.dropWhile_append hpass, hstop.takeWhile_append hpass]
  simp only [Address.ofChars?_render, Decimal.unsigned_render c.length_lt, ofParts, c.length_le, ↓reduceDIte]

end Cidr

end RouteProgramming
