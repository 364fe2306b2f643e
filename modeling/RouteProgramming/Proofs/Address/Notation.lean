import RouteProgramming.Proofs.Address.Text

/-! The notation of both families. The groups that an IPv6 text leaves out are
the first of the longest runs of zeros, so the text is a function of the address
that the reader undoes. A text that is read as IPv6 has a colon and one that is
read as IPv4 has none: the one test by which the family of a text is told gives
the right reader for every text that either of them takes. -/

namespace RouteProgramming

open Address.Text

variable {cs rest : List Char}

/-! ### The run that is left out -/

namespace Ipv6

/-- How many zeros there are from a place on without a gap. -/
def zerosFrom (groups : List Nat) (i : Nat) : Nat := ((groups.drop i).takeWhile (· == 0)).length

variable {groups : List Nat} {run : Nat × Nat}

theorem IsZeroRun.le_zerosFrom (h : IsZeroRun groups run) : run.2 ≤ zerosFrom groups run.1 := by
  have hsplit : groups.drop run.1 = List.replicate run.2 0 ++ (groups.drop run.1).drop run.2 := by
    rw [← h.2, List.take_append_drop]
  rw [zerosFrom, hsplit, List.takeWhile_append_of_pos, List.length_append, List.length_replicate]
  · exact Nat.le_add_right _ _
  · intro g hg
    exact beq_iff_eq.mpr (List.eq_of_mem_replicate hg)

/-- Of the runs that start at the first `k` places this one is the longest, and the first of those. -/
def IsLongest (groups : List Nat) (k : Nat) (best : Nat × Nat) : Prop :=
  best.1 ≤ k ∧ ∀ i < k, zerosFrom groups i ≤ best.2 ∧ (zerosFrom groups i = best.2 → 0 < best.2 → best.1 ≤ i)

theorem isLongest_longestZeros (groups : List Nat) : IsLongest groups groups.length (longestZeros groups) := by
  rw [longestZeros]
  induction groups.length with
  | zero => exact ⟨Nat.le_refl 0, nofun⟩
  | succ k ih =>
    rw [List.range_succ, List.foldl_append, List.foldl_cons, List.foldl_nil]
    generalize (List.range k).foldl _ (0, 0) = best at ih ⊢
    obtain ⟨hplace, hbest⟩ := ih
    dsimp only
    rw [show ((groups.drop k).takeWhile (· == 0)).length = zerosFrom groups k from rfl]
    split
    case isTrue hlonger =>
      refine ⟨Nat.le_succ k, fun i hi => ?_⟩
      rcases Nat.lt_succ_iff_lt_or_eq.mp hi with hi | rfl
      · have hle := (hbest i hi).1
        dsimp only
        omega
      · exact ⟨Nat.le_refl _, fun _ _ => Nat.le_refl _⟩
    case isFalse hshorter =>
      refine ⟨Nat.le_succ_of_le hplace, fun i hi => ?_⟩
      rcases Nat.lt_succ_iff_lt_or_eq.mp hi with hi | rfl
      · exact hbest i hi
      · exact ⟨Nat.le_of_not_lt hshorter, fun _ _ => hplace⟩

/-- No run of zeros is longer than the one left out, and none as long starts before it. -/
theorem longestZeros_first (h : IsZeroRun groups run) :
    run.2 ≤ (longestZeros groups).2 ∧
    (run.2 = (longestZeros groups).2 → 0 < run.2 → (longestZeros groups).1 ≤ run.1) := by
  rcases Nat.eq_zero_or_pos run.2 with hnone | hsome
  · omega
  have hplace : run.1 < groups.length := Nat.lt_of_lt_of_le (Nat.lt_add_of_pos_right hsome) h.1
  obtain ⟨hle, hfirst⟩ := (isLongest_longestZeros groups).2 run.1 hplace
  have hfrom := h.le_zerosFrom
  exact ⟨Nat.le_trans hfrom hle, fun heq _ => hfirst (by omega) (by omega)⟩

end Ipv6

/-! ### Texts with and without a colon -/

namespace Address.Text

theorem group_suffix {n : Nat} (h : group cs = some (n, rest)) : rest <:+ cs := by
  simp only [group, Option.bind_eq_bind] at h
  split at h
  · contradiction
  · obtain ⟨m, -, hm⟩ := Option.bind_eq_some_iff.mp h
    cases hm
    exact List.dropWhile_suffix _

end Address.Text

namespace Ipv4

/-- An octet is digits and no more. -/
theorem mem_of_octet {n : Nat} (h : octet cs = some (n, rest)) {c : Char} (hc : c ∈ cs) : c.isDigit ∨ c ∈ rest := by
  rw [← List.takeWhile_append_dropWhile (p := Char.isDigit) (l := cs), List.mem_append, ← octet_rest h] at hc
  exact hc.imp_left fun hc => List.all_eq_true.mp List.all_takeWhile c hc

theorem mem_of_separated {n : Nat} (h : separated false '.' octet cs = some (n, rest)) {c : Char} (hc : c ∈ cs) :
    (c.isDigit ∨ c = '.') ∨ c ∈ rest := by
  cases cs with
  | nil => cases hc
  | cons d cs =>
    by_cases hd : d = '.'
    · subst hd
      rw [separated_cons] at h
      rcases List.mem_cons.mp hc with hc | hc
      · exact .inl (.inr hc)
      · exact (mem_of_octet h hc).imp_left .inl
    · simp [separated, expect, hd] at h

/-- A dotted address is digits and points. -/
theorem mem_of_read {a : Ipv4} (h : read cs = some (a, rest)) {c : Char} (hc : c ∈ cs) :
    (c.isDigit ∨ c = '.') ∨ c ∈ rest := by
  simp only [read, Option.bind_eq_bind, Option.bind_eq_some_iff] at h
  obtain ⟨⟨n₁, r₁⟩, h₁, ⟨n₂, r₂⟩, h₂, ⟨n₃, r₃⟩, h₃, ⟨n₄, r₄⟩, h₄, hend⟩ := h
  cases hend
  rcases mem_of_octet h₁ hc with hc | hc
  · exact .inl (.inl hc)
  refine (mem_of_separated h₂ hc).elim .inl fun hc => ?_
  refine (mem_of_separated h₃ hc).elim .inl fun hc => ?_
  exact mem_of_separated h₄ hc

theorem colon_notMem {a : Ipv4} (h : ofChars? cs = some a) : ':' ∉ cs := by
  intro hmem
  rw [ofChars?] at h
  split at h
  case h_1 b hread =>
    rcases mem_of_read hread hmem with hc | hc
    · exact absurd hc (by decide)
    · exact absurd hc List.not_mem_nil
  case h_2 => cases h

end Ipv4

namespace Ipv6

/-- No further group is read without a colon. -/
theorem readGroups_of_no_colon (h : ':' ∉ cs) (left : Nat) : readGroups left false cs = ([], false, cs) := by
  cases left with
  | zero => rfl
  | succ left => rw [readGroups, separated_eq_none h, separated_eq_none h, ite_self]

/-- At most one group, or one dotted address, is read without a colon; neither is an IPv6 address. -/
theorem read_of_no_colon (h : ':' ∉ cs) : read cs = none := by
  have hfirst (left : Nat) : readGroups (left + 2) true cs =
      match Ipv4.read cs, group cs with
      | some (a, rest), _ => ([a.toNat / 65536, a.toNat % 65536], true, rest)
      | none, some (g, rest) => ([g], false, rest)
      | none, none => ([], false, cs) := by
    rw [readGroups, if_neg (Nat.succ_ne_zero left)]
    simp only [separated, if_true]
    cases Ipv4.read cs with
    | some dotted => rfl
    | none =>
      cases hgroup : group cs with
      | none => rfl
      | some one =>
        have hrest : ':' ∉ one.2 := fun hmem => h ((group_suffix hgroup).subset hmem)
        simp only [readGroups_of_no_colon hrest]
  rw [read, hfirst]
  cases Ipv4.read cs with
  | some dotted => rfl
  | none =>
    cases hgroup : group cs with
    | none => simp [expect_eq_none h]
    | some one =>
      have hrest : ':' ∉ one.2 := fun hmem => h ((group_suffix hgroup).subset hmem)
      simp [expect_eq_none hrest]

theorem colon_mem {a : Ipv6} (h : ofChars? cs = some a) : ':' ∈ cs := by
  refine Classical.byContradiction fun hnone => ?_
  rw [ofChars?, read_of_no_colon hnone] at h
  cases h

end Ipv6

/-! ### Either family -/

theorem Ipv4.parse_eq_ok_iff {s : String} {a : Ipv4} : parse s = .ok a ↔ ofChars? s.toList = some a := by
  rw [parse]
  cases ofChars? s.toList <;> simp

theorem Ipv6.parse_eq_ok_iff {s : String} {a : Ipv6} : parse s = .ok a ↔ ofChars? s.toList = some a := by
  rw [parse]
  cases ofChars? s.toList <;> simp

namespace Address

theorem parse_eq_ok_iff {s : String} {a : Address} : parse s = .ok a ↔ ofChars? s.toList = some a := by
  rw [parse]
  cases ofChars? s.toList <;> simp

/-- A text is an IPv4 address exactly when the reader of IPv4 addresses takes it. -/
theorem parse_eq_v4_iff {s : String} {a : Ipv4} : parse s = .ok (.v4 a) ↔ Ipv4.parse s = .ok a := by
  rw [parse_eq_ok_iff, Ipv4.parse_eq_ok_iff, ofChars?]
  split
  case isTrue hcolon =>
    refine iff_of_false (by simp) fun h => Ipv4.colon_notMem h ?_
    simpa using hcolon
  case isFalse => simp

theorem parse_eq_v6_iff {s : String} {a : Ipv6} : parse s = .ok (.v6 a) ↔ Ipv6.parse s = .ok a := by
  rw [parse_eq_ok_iff, Ipv6.parse_eq_ok_iff, ofChars?]
  split
  case isTrue => simp
  case isFalse hcolon =>
    refine iff_of_false (by simp) fun h => hcolon ?_
    simpa using Ipv6.colon_mem h

/-- Texts are read back as what was written, by the reader of the family and by the one of both; a prefix keeps its
length and its host bits. Each text that one family's reader takes is that family's for both. What an IPv6 text leaves
out is the first of the longest runs of zero groups, if it is longer than one. -/
theorem texts_read_back :
    (∀ a : Ipv4, Ipv4.parse a.text = .ok a ∧ parse a.text = .ok (.v4 a)) ∧
    (∀ a : Ipv6, Ipv6.parse a.text = .ok a ∧ parse a.text = .ok (.v6 a)) ∧
    (∀ a : Address, parse a.text = .ok a) ∧
    (∀ c : Cidr, Cidr.parse c.text = .ok c) ∧
    (∀ s a, parse s = .ok (.v4 a) ↔ Ipv4.parse s = .ok a) ∧
    (∀ s a, parse s = .ok (.v6 a) ↔ Ipv6.parse s = .ok a) ∧
    ∀ a : Ipv6, a.mapped? = none → ∃ start length, Ipv6.IsZeroRun a.groups (start, length) ∧
      (∀ run, Ipv6.IsZeroRun a.groups run → run.2 ≤ length ∧ (run.2 = length → 0 < run.2 → start ≤ run.1)) ∧
      a.render = if 1 < length then Ipv6.renderGroups (a.groups.take start) ++ "::".toList ++
        Ipv6.renderGroups (a.groups.drop (start + length)) else Ipv6.renderGroups a.groups := by
  refine ⟨fun a => ⟨a.parse_text, parse_eq_v4_iff.mpr a.parse_text⟩,
    fun a => ⟨a.parse_text, parse_eq_v6_iff.mpr a.parse_text⟩, parse_text, Cidr.parse_text,
    fun s a => parse_eq_v4_iff, fun s a => parse_eq_v6_iff, fun a hmapped => ?_⟩
  refine ⟨(Ipv6.longestZeros a.groups).1, (Ipv6.longestZeros a.groups).2, Ipv6.longestZeros_isZeroRun a.groups,
    fun run => Ipv6.longestZeros_first, ?_⟩
  rw [Ipv6.render, hmapped]

/-- Of two runs of two zero groups each the first is left out. -/
theorem texts_read_back_twoRuns :
    let a := Ipv6.ofGroups [0x2001, 0xdb8, 0, 0, 1, 0, 0, 1]
    a.text = "2001:db8::1:0:0:1" ∧ parse "2001:db8::1:0:0:1" = .ok (.v6 a) ∧
    ∃ start length, 2 ≤ length ∧ (length = 2 → start ≤ 2) ∧
      a.render = Ipv6.renderGroups (a.groups.take start) ++ "::".toList ++
        Ipv6.renderGroups (a.groups.drop (start + length)) := by
  intro a
  obtain ⟨-, hv6, -, -, -, -, hrun⟩ := texts_read_back
  have htext : a.text = "2001:db8::1:0:0:1" := by decide +kernel
  have hmapped : a.mapped? = none := by decide +kernel
  obtain ⟨start, length, -, hlongest, hrender⟩ := hrun a hmapped
  have hzeros : Ipv6.IsZeroRun a.groups (2, 2) := ⟨by decide +kernel, by decide +kernel⟩
  obtain ⟨hlength, hfirst⟩ := hlongest (2, 2) hzeros
  have hmany : 1 < length := hlength
  refine ⟨htext, htext ▸ (hv6 a).2, start, length, hlength, fun h => hfirst h.symm Nat.zero_lt_two, ?_⟩
  rw [hrender, if_pos hmany]

end Address

end RouteProgramming
