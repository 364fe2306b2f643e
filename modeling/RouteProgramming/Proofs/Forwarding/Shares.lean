import RouteProgramming.Proofs.Forwarding.Routing

/-! Which members of a group carry traffic. The hash of a destination is the
upper half of a multiple of an odd constant modulo 2^64. Two steps along these
multiples go forward by little: one adds a Fibonacci number to the factor, the
other takes the next Fibonacci number away, and one of the two is always open to
a factor below 2^32. So the multiples leave no gap as wide as two values of the
hash, and of any two neighbouring values one is the hash of some destination.
A member of weight is therefore picked for some destination if its share begins
below 2^32, and it never is if its share begins above, for the hash does not
reach that far, however large the weights are. -/

namespace RouteProgramming.NextHopGroup

/-! ### The hash -/

/-- A factor times the multiplier of the hash, which keeps the upper half of it. -/
def spot (n : Nat) : Nat := n * 11400714819323198485 % 18446744073709551616

theorem hash_eq_spot (d : Ipv4) : hash d = spot d.toNat / 4294967296 := rfl

theorem spot_lt (n : Nat) : spot n < 18446744073709551616 := by
  apply Nat.mod_lt
  decide

theorem hash_lt (d : Ipv4) : hash d < 4294967296 := by
  have hspot := spot_lt d.toNat
  rw [hash_eq_spot]
  omega

/-- A larger factor whose multiple lies a little further on. -/
theorem spot_add {n : Nat} (room : spot n + 6189034922 < 18446744073709551616) :
    spot (n + 1134903170) = spot n + 6189034922 := by
  unfold spot at *
  omega

/-- A smaller factor whose multiple lies a little further on. -/
theorem spot_sub {n : Nat} (above : 1836311903 ≤ n) (room : spot n + 6239955765 < 18446744073709551616) :
    spot (n - 1836311903) = spot n + 6239955765 := by
  unfold spot at *
  omega

/-- From every multiple another one lies at most the longer of the two steps ahead. -/
theorem exists_spot_ahead {n : Nat} (hn : n < 4294967296) (room : spot n + 6239955765 < 18446744073709551616) :
    ∃ m < 4294967296, spot n < spot m ∧ spot m ≤ spot n + 6239955765 := by
  rcases Nat.lt_or_ge n 1836311903 with hlow | hhigh
  · have hstep := spot_add (n := n) (by omega)
    exact ⟨n + 1134903170, by omega, by omega, by omega⟩
  · have hstep := spot_sub hhigh room
    exact ⟨n - 1836311903, by omega, by omega, by omega⟩

/-- No gap between the multiples is longer than a step. -/
theorem exists_spot_below {t : Nat} (ht : t < 18446744073709551616) :
    ∃ n < 4294967296, spot n ≤ t ∧ t < spot n + 6239955765 := by
  induction t with
  | zero => exact ⟨0, by decide, Nat.le_refl 0, by decide⟩
  | succ t ih =>
    obtain ⟨n, hn, hle, hlt⟩ := ih (by omega)
    by_cases hnear : t + 1 < spot n + 6239955765
    · exact ⟨n, hn, by omega, hnear⟩
    · obtain ⟨m, hm, hahead, hreach⟩ := exists_spot_ahead hn (by omega)
      exact ⟨m, hm, by omega, by omega⟩

/-- Of two neighbouring values one is the hash of a destination. -/
theorem exists_hash {x : Nat} (hx : x < 4294967296) : ∃ d : Ipv4, x ≤ hash d ∧ hash d ≤ x + 1 := by
  by_cases hlast : x = 4294967295
  · have htop : hash (.ofNat 2971215073) = 4294967295 := by decide
    exact ⟨.ofNat 2971215073, by omega, by omega⟩
  · obtain ⟨n, hn, hle, hlt⟩ := exists_spot_below (t := (x + 1) * 4294967296 + 4294967295) (by omega)
    refine ⟨.ofNat n, ?_⟩
    rw [hash_eq_spot, Ipv4.toNat_ofNat hn]
    omega

/-! ### Shares -/

/-- The weight of some members together. -/
def weightOf (rows : List (UInt64 × UInt64)) : Nat := (rows.map (·.2.toNat)).foldr (· + ·) 0

@[simp] theorem weightOf_nil : weightOf [] = 0 := rfl

@[simp] theorem weightOf_cons (r : UInt64 × UInt64) (rows : List (UInt64 × UInt64)) :
    weightOf (r :: rows) = r.2.toNat + weightOf rows := rfl

theorem weightOf_append (rows rest : List (UInt64 × UInt64)) :
    weightOf (rows ++ rest) = weightOf rows + weightOf rest := by
  induction rows with
  | nil => simp
  | cons r rows ih => simp [ih, Nat.add_assoc]

theorem totalWeight_eq (g : NextHopGroup) : g.totalWeight = weightOf g.members.rows := by
  rw [totalWeight, weightOf, Table.values, List.map_map]
  rfl

variable {g : NextHopGroup} {before after : List (UInt64 × UInt64)} {index weight : UInt64} {point : Nat}

theorem totalWeight_of_rows (rows : g.members.rows = before ++ (index, weight) :: after) :
    g.totalWeight = weightOf before + (weight.toNat + weightOf after) := by
  rw [totalWeight_eq, rows, weightOf_append, weightOf_cons]

/-- A member has the points of its share, which lies behind those of the members before it. -/
theorem memberAt_eq_some_iff (nodup : ((before ++ (index, weight) :: after).map (·.1)).Nodup) :
    memberAt (before ++ (index, weight) :: after) point = some index ↔
      weightOf before ≤ point ∧ point < weightOf before + weight.toNat := by
  induction before generalizing point with
  | nil =>
    simp only [List.nil_append, List.map_cons, List.nodup_cons] at nodup
    simp only [List.nil_append, memberAt, weightOf_nil, Nat.zero_le, true_and, Nat.zero_add]
    constructor
    · intro h
      by_contra hout
      rw [if_neg hout] at h
      exact nodup.1 (mem_of_memberAt h)
    · intro hin
      rw [if_pos hin]
  | cons r before ih =>
    simp only [List.cons_append, List.map_cons, List.nodup_cons] at nodup
    have hne : r.1 ≠ index := by
      intro heq
      apply nodup.1
      simp [heq]
    rw [List.cons_append, memberAt, weightOf_cons]
    split
    case isTrue hfirst =>
      refine iff_of_false (fun h => hne (Option.some.inj h)) ?_
      omega
    case isFalse hlater =>
      rw [ih nodup.2]
      omega

/-- A destination goes to a member if its hash, reduced to the weights, lies in the member's share. -/
theorem pick_eq_some_iff (rows : g.members.rows = before ++ (index, weight) :: after) (d : Ipv4) :
    g.pick d = some index ↔ weightOf before ≤ hash d % g.totalWeight ∧
      hash d % g.totalWeight < weightOf before + weight.toNat := by
  have hnodup : ((before ++ (index, weight) :: after).map (·.1)).Nodup := by
    rw [← rows]
    exact g.members.keys_nodup
  have htotal := totalWeight_of_rows rows
  rw [pick]
  split
  case isTrue hzero =>
    refine iff_of_false (by simp) ?_
    omega
  case isFalse =>
    rw [rows]
    exact memberAt_eq_some_iff hnodup

/-- The hash does not reach beyond 32 bits. -/
theorem weightOf_before_lt (rows : g.members.rows = before ++ (index, weight) :: after) {d : Ipv4}
    (h : g.pick d = some index) : weightOf before < 4294967296 := by
  have hshare := (pick_eq_some_iff rows d).1 h
  have hle := Nat.mod_le (hash d) g.totalWeight
  have hlt := hash_lt d
  omega

/-- A share of two points or more that begins within reach of the hash is hit. -/
theorem exists_pick_of_two_le (rows : g.members.rows = before ++ (index, weight) :: after)
    (reach : weightOf before < 4294967296) (two : 2 ≤ weight.toNat) : ∃ d, g.pick d = some index := by
  obtain ⟨d, hle, hge⟩ := exists_hash reach
  have htotal := totalWeight_of_rows rows
  have hpoint : hash d % g.totalWeight = hash d := by
    apply Nat.mod_eq_of_lt
    omega
  refine ⟨d, (pick_eq_some_iff rows d).2 ?_⟩
  rw [hpoint]
  omega

/-- With a weight of one, half of all there is, a member is alone or one of two. -/
theorem exists_pick_of_one (rows : g.members.rows = before ++ (index, weight) :: after)
    (one : weight.toNat = 1) (half : g.totalWeight ≤ 2 * weight.toNat) : ∃ d, g.pick d = some index := by
  have htotal := totalWeight_of_rows rows
  rcases Nat.eq_zero_or_pos (weightOf before) with hfirst | hsecond
  · have hzero : hash (.ofNat 0) = 0 := by decide
    refine ⟨.ofNat 0, (pick_eq_some_iff rows _).2 ?_⟩
    rw [hzero, Nat.zero_mod]
    omega
  · have hodd : hash (.ofNat 1) = 2654435769 := by decide
    have htwo : g.totalWeight = 2 := by omega
    refine ⟨.ofNat 1, (pick_eq_some_iff rows _).2 ?_⟩
    rw [hodd, htwo]
    omega

theorem exists_pick_iff (rows : g.members.rows = before ++ (index, weight) :: after) (positive : weight ≠ 0)
    (half : g.totalWeight ≤ 2 * weight.toNat) :
    (∃ d, g.pick d = some index) ↔ weightOf before < 4294967296 := by
  constructor
  · rintro ⟨d, hd⟩
    exact weightOf_before_lt rows hd
  · intro reach
    have hpos : weight.toNat ≠ 0 := by
      intro hzero
      exact positive (UInt64.toNat_inj.1 hzero)
    by_cases hone : weight.toNat = 1
    · exact exists_pick_of_one rows hone half
    · exact exists_pick_of_two_le rows reach (by omega)

/-- In a group with weights, a member with at least half of the weight is picked for some destination exactly if
the weights before it add up to less than 2^32; and of two members of equal weight both are picked for some
destination exactly if that weight is less than 2^32. -/
theorem heavy_member_picked_iff (g : NextHopGroup) (positive : ∀ r ∈ g.members.rows, r.2 ≠ 0) :
    (∀ before index weight after, g.members.rows = before ++ (index, weight) :: after →
      g.totalWeight ≤ 2 * weight.toNat → ((∃ d, g.pick d = some index) ↔ weightOf before < 4294967296)) ∧
    ∀ first second weight, g.members.rows = [(first, weight), (second, weight)] →
      ((∃ d, g.pick d = some first) ∧ (∃ d, g.pick d = some second) ↔ weight.toNat < 4294967296) := by
  constructor
  · intro before index weight after rows half
    apply exists_pick_iff rows _ half
    apply positive (index, weight)
    rw [rows]
    simp
  · intro first second weight rows
    have hpos : weight ≠ 0 := positive (first, weight) (by simp [rows])
    have hhalf : g.totalWeight ≤ 2 * weight.toNat := by
      rw [totalWeight_eq, rows]
      simp
      omega
    have hfirst : (∃ d, g.pick d = some first) ↔ weightOf [] < 4294967296 := exists_pick_iff rows hpos hhalf
    have hsecond : (∃ d, g.pick d = some second) ↔ weightOf [(first, weight)] < 4294967296 :=
      exists_pick_iff rows hpos hhalf
    simp only [weightOf_cons, weightOf_nil, Nat.add_zero] at hfirst hsecond
    rw [hfirst, hsecond]
    omega

/-! ### Two members of equal weight -/

def pair (weight : UInt64) : NextHopGroup := { id := 10, members := Table.ofList [(1, weight), (2, weight)] }

theorem rows_pair (weight : UInt64) : (pair weight).members.rows = [(1, weight), (2, weight)] := rfl

/-- The largest equal weights with which both members carry traffic. -/
theorem heavy_member_picked_iff_pair : (pair 4294967295).check = .ok () ∧
    (∃ d, (pair 4294967295).pick d = some 1) ∧ ∃ d, (pair 4294967295).pick d = some 2 := by
  have positive : ∀ r ∈ (pair 4294967295).members.rows, r.2 ≠ 0 := by simp [rows_pair]
  have hboth := (heavy_member_picked_iff (pair 4294967295) positive).2 1 2 _ (rows_pair _)
  exact ⟨by decide, hboth.2 (by decide)⟩

/-- With weights of 2^63 each the second of two members holds half of the weight and never carries anything. -/
theorem second_half_starves : (pair 9223372036854775808).check = .ok () ∧
    (pair 9223372036854775808).members.get? 2 = some 9223372036854775808 ∧
    (pair 9223372036854775808).totalWeight ≤ 2 * (9223372036854775808 : UInt64).toNat ∧
    ∀ d, (pair 9223372036854775808).pick d ≠ some 2 := by
  refine ⟨by decide, by decide, by decide, ?_⟩
  intro d hd
  have hreach : weightOf [(1, 9223372036854775808)] < 4294967296 := weightOf_before_lt (rows_pair _) hd
  simp at hreach

end RouteProgramming.NextHopGroup
