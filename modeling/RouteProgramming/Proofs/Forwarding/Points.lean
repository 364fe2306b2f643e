import RouteProgramming.Proofs.Address.Words
import RouteProgramming.Proofs.Forwarding.Shares

/-! The points that the weights of a group are laid out on. Every point below the
total lies in the share of exactly one member, which has weight, and a member's
share has as many points as its weight says. The walk along the members takes the
weights of those it has passed off the point, so that what is left of the point
is counted from the start of the next share. A group has at most 2^64 members of
less than 2^64 each, so that no sum of weights leaves 128 bits; and a weight is
only taken off a point that is not below it. -/

namespace RouteProgramming.NextHopGroup

open Word

variable {g : NextHopGroup} {before after : List (UInt64 × UInt64)} {index weight : UInt64} {point : Nat}

/-! ### Shares in index order -/

/-- The weights of the members with smaller indices together. -/
def weightBelow (g : NextHopGroup) (index : UInt64) : Nat :=
  weightOf (g.members.rows.filter (fun r => r.1 < index))

/-- A point lies in the share of a member, which begins where the shares of all smaller indices end. -/
structure Covers (g : NextHopGroup) (index weight : UInt64) (point : Nat) : Prop where
  member : g.members.get? index = some weight
  above : g.weightBelow index ≤ point
  below : point < g.weightBelow index + weight.toNat

/-- The members before one in the table are those with smaller indices. -/
theorem weightBelow_of_rows (rows : g.members.rows = before ++ (index, weight) :: after) :
    g.weightBelow index = weightOf before := by
  have hincreasing := g.members.increasing
  rw [rows, List.pairwise_append, List.pairwise_cons] at hincreasing
  obtain ⟨-, ⟨hafter, -⟩, hbefore⟩ := hincreasing
  have hkept : before.filter (fun r => r.1 < index) = before := by
    rw [List.filter_eq_self]
    intro r hr
    exact decide_eq_true (Std.compare_eq_lt.1 (hbefore r hr _ List.mem_cons_self))
  have hdropped : ((index, weight) :: after).filter (fun r => r.1 < index) = [] := by
    rw [List.filter_eq_nil_iff]
    intro r hr
    rw [decide_eq_true_iff, UInt64.not_lt]
    rcases List.mem_cons.1 hr with rfl | hr
    · exact UInt64.le_refl _
    · exact UInt64.le_of_lt (Std.compare_eq_lt.1 (hafter r hr))
  rw [weightBelow, rows, List.filter_append, hkept, hdropped, List.append_nil]

theorem exists_rows (h : g.members.get? index = some weight) :
    ∃ before after, g.members.rows = before ++ (index, weight) :: after :=
  List.append_of_mem (Table.get?_eq_some_iff.1 h)

/-- The walk ends at the member whose share the point lies in. -/
theorem memberAt_eq_some_iff_covers (h : g.members.get? index = some weight) :
    memberAt g.members.rows point = some index ↔ g.Covers index weight point := by
  obtain ⟨before, after, rows⟩ := exists_rows h
  have hnodup : ((before ++ (index, weight) :: after).map (·.1)).Nodup := by
    rw [← rows]
    exact g.members.keys_nodup
  rw [rows, memberAt_eq_some_iff hnodup, ← weightBelow_of_rows rows]
  constructor
  · rintro ⟨above, below⟩
    exact ⟨h, above, below⟩
  · rintro ⟨-, above, below⟩
    exact ⟨above, below⟩

theorem Covers.memberAt (h : g.Covers index weight point) : NextHopGroup.memberAt g.members.rows point = some index :=
  (memberAt_eq_some_iff_covers h.member).2 h

theorem Covers.weight_ne_zero (h : g.Covers index weight point) : weight ≠ 0 := by
  rintro rfl
  have habove := h.above
  have hbelow := h.below
  rw [UInt64.toNat_zero] at hbelow
  omega

/-- No two shares have a point in common. -/
theorem Covers.unique {other weight' : UInt64} (h : g.Covers index weight point) (ho : g.Covers other weight' point) :
    other = index := Option.some.inj (ho.memberAt.symm.trans h.memberAt)

/-- The shares leave no point out. -/
theorem exists_covers (h : point < g.totalWeight) : ∃ index weight, g.Covers index weight point := by
  rw [totalWeight_eq] at h
  obtain ⟨r, hr, hmember⟩ := memberAt_mem h
  have hget : g.members.get? r.1 = some r.2 := Table.get?_eq_some_iff.2 hr
  exact ⟨r.1, r.2, (memberAt_eq_some_iff_covers hget).1 hmember⟩

/-- Of the numbers below `n`, those from `a` on up to `a + b` are `b` many. -/
theorem countP_interval {p : Nat → Bool} {a b n : Nat} (inside : ∀ point, p point ↔ a ≤ point ∧ point < a + b)
    (room : a + b ≤ n) : (List.range n).countP p = b := by
  obtain ⟨c, rfl⟩ := Nat.exists_eq_add_of_le room
  have hbefore : (List.range a).countP p = 0 := by
    rw [List.countP_eq_zero]
    intro k hk
    rw [inside]
    have hlt := List.mem_range.1 hk
    omega
  have hwithin : ((List.range b).map (a + ·)).countP p = b := by
    rw [List.countP_eq_length.2, List.length_map, List.length_range]
    intro k hk
    obtain ⟨j, hj, rfl⟩ := List.mem_map.1 hk
    rw [inside]
    have hlt := List.mem_range.1 hj
    omega
  have hbehind : ((List.range c).map (a + b + ·)).countP p = 0 := by
    rw [List.countP_eq_zero]
    intro k hk
    obtain ⟨j, -, rfl⟩ := List.mem_map.1 hk
    rw [inside]
    omega
  rw [List.range_add, List.range_add, List.countP_append, List.countP_append, hbefore, hwithin, hbehind, Nat.zero_add,
    Nat.add_zero]

/-- A share has its weight many points. -/
theorem countP_memberAt (h : g.members.get? index = some weight) :
    (List.range g.totalWeight).countP (fun point => memberAt g.members.rows point = some index) = weight.toNat := by
  obtain ⟨before, after, rows⟩ := exists_rows h
  apply countP_interval (a := g.weightBelow index)
  · intro point
    rw [decide_eq_true_iff, memberAt_eq_some_iff_covers h]
    exact ⟨fun hcovers => ⟨hcovers.above, hcovers.below⟩, fun ⟨above, below⟩ => ⟨h, above, below⟩⟩
  · rw [totalWeight_of_rows rows, weightBelow_of_rows rows]
    omega

/-! ### Walking with words -/

theorem weightOf_le (rows : List (UInt64 × UInt64)) : weightOf rows ≤ rows.length * 18446744073709551615 := by
  induction rows with
  | nil => exact Nat.zero_le _
  | cons r rows ih =>
    have hweight := UInt64.toNat_lt r.2
    rw [weightOf_cons, List.length_cons]
    omega

theorem length_keys_le {keys : List UInt64} (h : keys.Nodup) : keys.length ≤ 18446744073709551616 := by
  have hnodup : (keys.map UInt64.toNat).Nodup := h.map fun a b => UInt64.toNat_inj.1
  have hsub : keys.map UInt64.toNat ⊆ List.range 18446744073709551616 := by
    intro n hn
    obtain ⟨k, -, rfl⟩ := List.mem_map.1 hn
    exact List.mem_range.2 (UInt64.toNat_lt k)
  have hle := hnodup.length_le_of_subset hsub
  rwa [List.length_map, List.length_range] at hle

/-- The indices are distinct, so that there are not enough of them to make the sum too large. -/
theorem totalWeight_lt (g : NextHopGroup) : g.totalWeight < Nat.pow 2 128 := by
  have hcount := length_keys_le g.members.keys_nodup
  have hsum := weightOf_le g.members.rows
  rw [Table.keys, List.length_map] at hcount
  rw [totalWeight_eq]
  calc weightOf g.members.rows ≤ g.members.rows.length * 18446744073709551615 := hsum
    _ ≤ 18446744073709551616 * 18446744073709551615 := Nat.mul_le_mul_right _ hcount
    _ < Nat.pow 2 128 := by decide

/-- The sum of the weights in 128 bits, in index order. -/
def total? (g : NextHopGroup) : Option (BitVec 128) :=
  g.members.rows.foldlM (fun sum r => plus? sum (r.2.toBitVec.setWidth 128)) 0

/-- The walk along the members with a point in 128 bits. -/
def memberAt? : List (UInt64 × UInt64) → (point : BitVec 128) → Option (Option UInt64)
  | [], _ => some none
  | (index, weight) :: rest, point =>
    if point < weight.toBitVec.setWidth 128 then some (some index)
    else (minus? point (weight.toBitVec.setWidth 128)).bind (memberAt? rest)

/-- The hash as the upper half of a product of 64 bits. -/
def hashWord (destination : Ipv4) : BitVec 64 := (destination.bits.setWidth 64 * 0x9E3779B97F4A7C15#64) >>> 32

def pick? (g : NextHopGroup) (destination : Ipv4) : Option (Option UInt64) := do
  let total ← g.total?
  if total = 0 then some none else memberAt? g.members.rows ((hashWord destination).setWidth 128 % total)

theorem toNat_weight (weight : UInt64) : (weight.toBitVec.setWidth 128).toNat = weight.toNat :=
  BitVec.toNat_setWidth_of_le (by decide)

/-- Every sum on the way is at most the last one. -/
theorem foldlM_plus? {rows : List (UInt64 × UInt64)} {sum : Nat} (room : sum + weightOf rows < Nat.pow 2 128) :
    rows.foldlM (fun sum r => plus? sum (r.2.toBitVec.setWidth 128)) (BitVec.ofNat 128 sum) =
      some (BitVec.ofNat 128 (sum + weightOf rows)) := by
  induction rows generalizing sum with
  | nil => rfl
  | cons r rows ih =>
    rw [weightOf_cons, ← Nat.add_assoc] at room
    have hsum : (BitVec.ofNat 128 sum).toNat = sum := toNat_ofNat (Nat.le_refl _) (by omega)
    have hplus := plus?_of_lt (x := BitVec.ofNat 128 sum) (y := r.2.toBitVec.setWidth 128)
      (by rw [hsum, toNat_weight]; omega)
    rw [List.foldlM_cons, hplus, hsum, toNat_weight, weightOf_cons, ← Nat.add_assoc]
    exact ih room

theorem total?_eq (g : NextHopGroup) : g.total? = some (BitVec.ofNat 128 g.totalWeight) := by
  have hroom : 0 + weightOf g.members.rows < Nat.pow 2 128 := by
    rw [Nat.zero_add, ← totalWeight_eq]
    exact g.totalWeight_lt
  rw [total?, totalWeight_eq]
  exact (foldlM_plus? hroom).trans (by rw [Nat.zero_add])

/-- A weight is taken off only where it is not above the point. -/
theorem memberAt?_eq (rows : List (UInt64 × UInt64)) (point : BitVec 128) :
    memberAt? rows point = some (memberAt rows point.toNat) := by
  induction rows generalizing point with
  | nil => rfl
  | cons r rows ih =>
    have hwords : point < r.2.toBitVec.setWidth 128 ↔ point.toNat < r.2.toNat := by
      rw [BitVec.lt_def, toNat_weight]
    rw [memberAt?, memberAt]
    by_cases hlt : point.toNat < r.2.toNat
    · rw [if_pos hlt, if_pos (hwords.2 hlt)]
    · have hle : (r.2.toBitVec.setWidth 128).toNat ≤ point.toNat := by
        rw [toNat_weight]
        omega
      have hrest : (BitVec.ofNat 128 (point.toNat - r.2.toNat)).toNat = point.toNat - r.2.toNat :=
        toNat_ofNat (Nat.sub_le ..) point.isLt
      rw [if_neg hlt, if_neg fun h => hlt (hwords.1 h), minus?_of_le hle, toNat_weight, Option.bind_some, ih, hrest]

theorem toNat_hashWord (destination : Ipv4) : (hashWord destination).toNat = hash destination := by
  have hwide : (destination.bits.setWidth 64).toNat = destination.toNat := BitVec.toNat_setWidth_of_le (by decide)
  rw [hashWord, BitVec.toNat_ushiftRight, BitVec.toNat_mul, hwide, Nat.shiftRight_eq_div_pow, hash]
  rfl

/-- Picking in words has a result, and the same one. -/
theorem pick?_eq (g : NextHopGroup) (destination : Ipv4) : g.pick? destination = some (g.pick destination) := by
  have htotal : (BitVec.ofNat 128 g.totalWeight).toNat = g.totalWeight := toNat_ofNat (Nat.le_refl _) g.totalWeight_lt
  have hhash : ((hashWord destination).setWidth 128).toNat = hash destination := by
    rw [BitVec.toNat_setWidth_of_le (by decide), toNat_hashWord]
  have hzero : BitVec.ofNat 128 g.totalWeight = 0 ↔ g.totalWeight = 0 := by
    rw [← BitVec.toNat_inj, htotal]
    rfl
  rw [pick?, total?_eq, Option.bind_eq_bind, Option.bind_some, pick]
  by_cases hnone : g.totalWeight = 0
  · rw [if_pos hnone, if_pos (hzero.2 hnone)]
  · rw [if_neg hnone, if_neg fun h => hnone (hzero.1 h), memberAt?_eq, BitVec.toNat_umod, hhash, htotal]

/-! ### Picking -/

theorem pick_of_pos (h : 0 < g.totalWeight) (destination : Ipv4) :
    g.pick destination = memberAt g.members.rows (hash destination % g.totalWeight) := if_neg (Nat.ne_of_gt h)

theorem pick_eq_none_iff {destination : Ipv4} : g.pick destination = none ↔ g.totalWeight = 0 := by
  constructor
  · intro hnone
    by_contra hpos
    have hlt := Nat.mod_lt (hash destination) (Nat.pos_of_ne_zero hpos)
    obtain ⟨index, weight, hcovers⟩ := exists_covers hlt
    rw [pick_of_pos (Nat.pos_of_ne_zero hpos), hcovers.memberAt] at hnone
    contradiction
  · intro hzero
    rw [pick, if_pos hzero]

/-- The weights of a group add up within 128 bits, and picking in words of that width always has a result, that of the
picking on numbers. It picks nobody exactly if there is no weight; otherwise it picks the one member in whose share the
point lies, which is a member with weight. Of all points below the total every member has its weight many. -/
theorem pick_exact (g : NextHopGroup) :
    g.total? = some (BitVec.ofNat 128 g.totalWeight) ∧ g.totalWeight < Nat.pow 2 128 ∧
    (∀ destination, g.pick? destination = some (g.pick destination)) ∧
    (∀ destination, g.pick destination = none ↔ g.totalWeight = 0) ∧
    (∀ destination, 0 < g.totalWeight → ∃ index weight, g.pick destination = some index ∧ weight ≠ 0 ∧
      g.Covers index weight (hash destination % g.totalWeight) ∧
      ∀ other weight', g.Covers other weight' (hash destination % g.totalWeight) → other = index) ∧
    ∀ index weight, g.members.get? index = some weight →
      (List.range g.totalWeight).countP (fun point => memberAt g.members.rows point = some index) = weight.toNat := by
  refine ⟨g.total?_eq, g.totalWeight_lt, g.pick?_eq, fun _ => pick_eq_none_iff, fun destination hpos => ?_,
    fun _ _ => countP_memberAt⟩
  obtain ⟨index, weight, hcovers⟩ := exists_covers (Nat.mod_lt (hash destination) hpos)
  refine ⟨index, weight, ?_, hcovers.weight_ne_zero, hcovers, fun _ _ => hcovers.unique⟩
  rw [pick_of_pos hpos, hcovers.memberAt]

/-- Members with the largest and the smallest weight between two without any. -/
def uneven : NextHopGroup :=
  { id := 10, members := Table.ofList [(1, 0), (4, 18446744073709551615), (9, 1), (20, 0)] }

theorem pick_exact_uneven :
    0 < uneven.totalWeight ∧ uneven.pick (.ofOctets 203 0 113 1) = some 4 ∧
    (∃ index weight, uneven.pick (.ofOctets 203 0 113 1) = some index ∧ weight ≠ 0 ∧
      uneven.Covers index weight (hash (.ofOctets 203 0 113 1) % uneven.totalWeight)) ∧
    uneven.members.get? 9 = some 1 ∧
    (List.range uneven.totalWeight).countP (fun point => memberAt uneven.members.rows point = some 9) = 1 := by
  have hpos : 0 < uneven.totalWeight := by decide
  have hmember : uneven.members.get? 9 = some 1 := by decide
  obtain ⟨-, -, -, -, hpicks, hcounts⟩ := pick_exact uneven
  obtain ⟨index, weight, hpick, hweight, hcovers, -⟩ := hpicks (.ofOctets 203 0 113 1) hpos
  exact ⟨hpos, by decide, ⟨index, weight, hpick, hweight, hcovers⟩, hmember, hcounts 9 1 hmember⟩

end RouteProgramming.NextHopGroup
