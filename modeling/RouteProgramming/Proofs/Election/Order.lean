import RouteProgramming.Parameters

/-! The order of election ids. The two words of an id stand side by side in one
word of 128 bits, the high one first, so that ids are ordered by the high word
and then by the low one. The step to the next id adds one to the whole, with the
carry from the low word into the high one. Nothing fits between an id and the
next, and only the highest id has no id above it: its carry is lost, and the
step from it leads to zero, which no client may present. -/

namespace RouteProgramming.ElectionId

/-! ### Numbers -/

theorem value_lt (e : ElectionId) : e.value < 340282366920938463463374607431768211456 := by
  have hhigh := UInt64.toNat_lt e.high
  have hlow := UInt64.toNat_lt e.low
  rw [value]
  omega

theorem value_inj {a b : ElectionId} (h : a.value = b.value) : a = b := by
  have hhigh := UInt64.toNat_lt a.high
  have hlow := UInt64.toNat_lt a.low
  have hhigh' := UInt64.toNat_lt b.high
  have hlow' := UInt64.toNat_lt b.low
  rw [value, value] at h
  have hh : a.high.toNat = b.high.toNat := by omega
  have hl : a.low.toNat = b.low.toNat := by omega
  cases a
  cases b
  rw [mk.injEq]
  exact ⟨UInt64.toNat_inj.1 hh, UInt64.toNat_inj.1 hl⟩

theorem lt_iff_value {a b : ElectionId} : a < b ↔ a.value < b.value := Iff.rfl

theorem not_lt {a b : ElectionId} : ¬ a < b ↔ b ≤ a := Nat.not_lt

theorem le_antisymm {a b : ElectionId} (hab : a ≤ b) (hba : b ≤ a) : a = b := value_inj (Nat.le_antisymm hab hba)

theorem max_eq (a b : ElectionId) : max a b = a ∨ max a b = b := by
  change (if a ≤ b then b else a) = a ∨ (if a ≤ b then b else a) = b
  split
  · exact .inr rfl
  · exact .inl rfl

theorem value_max (a b : ElectionId) : (max a b).value = max a.value b.value := by
  change (if a.value ≤ b.value then b else a).value = _
  split
  case isTrue h => exact (Nat.max_eq_right h).symm
  case isFalse h => exact (Nat.max_eq_left (Nat.le_of_not_le h)).symm

/-- Ids are compared by the high word, and by the low word if the high ones are the same. -/
theorem lt_iff_words {a b : ElectionId} : a < b ↔ a.high < b.high ∨ a.high = b.high ∧ a.low < b.low := by
  have hlow := UInt64.toNat_lt a.low
  have hlow' := UInt64.toNat_lt b.low
  rw [lt_iff_value, value, value, UInt64.lt_iff_toNat_lt, UInt64.lt_iff_toNat_lt, ← UInt64.toNat_inj]
  omega

theorem compare_eq_value (a b : ElectionId) : compare a b = compare a.value b.value := by
  rw [show compare a b = compareOn value a b from rfl, compareOn]

theorem compare_eq_lt {a b : ElectionId} : compare a b = .lt ↔ a < b := by
  rw [compare_eq_value]
  exact Nat.compare_eq_lt

theorem compare_eq_gt {a b : ElectionId} : compare a b = .gt ↔ b < a := by
  rw [compare_eq_value]
  exact Nat.compare_eq_gt

theorem compare_eq_eq {a b : ElectionId} : compare a b = .eq ↔ a = b := by
  rw [compare_eq_value, Nat.compare_eq_eq]
  constructor
  · exact value_inj
  · rintro rfl
    rfl

/-! ### Words -/

/-- The high word moved up by its width, and the low word below it. -/
def packed (e : ElectionId) : BitVec 128 :=
  e.high.toBitVec.setWidth 128 <<< 64 ||| e.low.toBitVec.setWidth 128

/-- The upper half of a word and the lower one. -/
def unpacked (w : BitVec 128) : ElectionId := ⟨⟨(w >>> 64).setWidth 64⟩, ⟨w.setWidth 64⟩⟩

/-- The two words do not overlap, so that their disjunction is a sum. -/
theorem toNat_packed (e : ElectionId) : e.packed.toNat = e.value := by
  have hhigh := UInt64.toNat_lt e.high
  have hlow := UInt64.toNat_lt e.low
  have hwide : (e.high.toBitVec.setWidth 128).toNat = e.high.toNat := BitVec.toNat_setWidth_of_le (by decide)
  have hnarrow : (e.low.toBitVec.setWidth 128).toNat = e.low.toNat := BitVec.toNat_setWidth_of_le (by decide)
  have hroom : e.high.toNat <<< 64 < 340282366920938463463374607431768211456 := by
    rw [Nat.shiftLeft_eq]
    omega
  rw [packed, BitVec.toNat_or, BitVec.toNat_shiftLeft, hwide, hnarrow, Nat.mod_eq_of_lt hroom,
    ← Nat.shiftLeft_add_eq_or_of_lt hlow, Nat.shiftLeft_eq, value]

theorem unpacked_eq (w : BitVec 128) : unpacked w = ofValue w.toNat := by
  have hhigh : ((w >>> 64).setWidth 64).toNat = w.toNat / 18446744073709551616 % 18446744073709551616 := by
    rw [BitVec.toNat_setWidth, BitVec.toNat_ushiftRight, Nat.shiftRight_eq_div_pow]
  have hlow : (w.setWidth 64).toNat = w.toNat % 18446744073709551616 := BitVec.toNat_setWidth ..
  rw [unpacked, ofValue, mk.injEq, ← UInt64.toNat_inj, ← UInt64.toNat_inj, UInt64.toNat_ofNat', UInt64.toNat_ofNat']
  exact ⟨hhigh, hlow⟩

/-- What a number has above 128 bits is lost. -/
theorem value_ofValue (n : Nat) : (ofValue n).value = n % 340282366920938463463374607431768211456 := by
  rw [ofValue, value, UInt64.toNat_ofNat', UInt64.toNat_ofNat']
  omega

theorem packed_unpacked (w : BitVec 128) : (unpacked w).packed = w := by
  apply BitVec.eq_of_toNat_eq
  rw [toNat_packed, unpacked_eq, value_ofValue, Nat.mod_eq_of_lt w.isLt]

/-- The step to the next id is an addition on the whole word. -/
theorem increment_eq (e : ElectionId) : e.increment = unpacked (e.packed + 1) := by
  apply value_inj
  rw [increment, value_ofValue, unpacked_eq, value_ofValue, BitVec.toNat_add, toNat_packed]
  exact (Nat.mod_mod ..).symm

/-! ### The next id -/

/-- Every bit of it is set. -/
def highest : ElectionId := ⟨18446744073709551615, 18446744073709551615⟩

theorem value_highest : highest.value = 340282366920938463463374607431768211455 := by decide

theorem le_highest (e : ElectionId) : e ≤ highest := by
  have hlt := e.value_lt
  change e.value ≤ highest.value
  rw [value_highest]
  omega

/-- Below the highest id a step adds one. -/
theorem value_increment {e : ElectionId} (below : e ≠ highest) : e.increment.value = e.value + 1 := by
  have hlt := e.value_lt
  have hne : e.value ≠ 340282366920938463463374607431768211455 := by
    intro h
    exact below (value_inj (h.trans value_highest.symm))
  rw [increment, value_ofValue, Nat.mod_eq_of_lt (by omega)]

theorem check_of_pos {e : ElectionId} (h : 0 < e.value) : e.check = .ok () := by
  have hzero : e.isZero = false := by
    rw [isZero, Bool.eq_false_iff, Ne, Bool.and_eq_true, beq_iff_eq, beq_iff_eq]
    rintro ⟨hhigh, hlow⟩
    rw [value, hhigh, hlow] at h
    exact absurd h (by decide)
  rw [check, hzero, if_neg Bool.false_ne_true]

/-- A full low word carries into the high one. -/
theorem increment_eq_words (e : ElectionId) :
    e.increment = if e.low = 18446744073709551615 then ⟨e.high + 1, 0⟩ else ⟨e.high, e.low + 1⟩ := by
  have hhigh := UInt64.toNat_lt e.high
  have hlow := UInt64.toNat_lt e.low
  apply value_inj
  rw [increment, value_ofValue, value]
  split
  case isTrue hfull =>
    rw [value, hfull, UInt64.toNat_add]
    simp only [UInt64.toNat_ofNat]
    omega
  case isFalse hroom =>
    rw [← UInt64.toNat_inj] at hroom
    simp only [UInt64.toNat_ofNat] at hroom
    rw [value, UInt64.toNat_add]
    simp only [UInt64.toNat_ofNat]
    omega

/-- Ids are ordered by their words, the high one first, which is the order of the words packed together, and only equal
ids compare as equal. A step adds one to the packed word; from every id but the highest it leads to the next id above,
which may be presented, and from the highest, above which there is none, it leads to zero. -/
theorem ordered_and_stepped :
    (∀ a b : ElectionId, (a < b ↔ a.high < b.high ∨ a.high = b.high ∧ a.low < b.low) ∧
      (a < b ↔ a.packed < b.packed) ∧ (compare a b = .lt ↔ a < b) ∧ (compare a b = .gt ↔ b < a) ∧
      (compare a b = .eq ↔ a = b)) ∧
    (∀ a : ElectionId, a.increment.packed = a.packed + 1 ∧
      a.increment = if a.low = 18446744073709551615 then ⟨a.high + 1, 0⟩ else ⟨a.high, a.low + 1⟩) ∧
    (∀ a : ElectionId, a ≠ highest →
      a < a.increment ∧ (∀ c, ¬(a < c ∧ c < a.increment)) ∧ a.increment.check = .ok ()) ∧
    (∀ a : ElectionId, ¬highest < a) ∧ highest.increment = ⟨0, 0⟩ := by
  refine ⟨fun a b => ⟨lt_iff_words, ?_, compare_eq_lt, compare_eq_gt, compare_eq_eq⟩,
    fun a => ⟨?_, a.increment_eq_words⟩, fun a below => ⟨?_, ?_, ?_⟩, fun a => not_lt.2 a.le_highest, by decide⟩
  · rw [BitVec.lt_def, toNat_packed, toNat_packed, lt_iff_value]
  · rw [increment_eq, packed_unpacked]
  · rw [lt_iff_value, value_increment below]
    exact Nat.lt_succ_self _
  · rintro c ⟨habove, hbelow⟩
    rw [lt_iff_value] at habove hbelow
    rw [value_increment below] at hbelow
    omega
  · apply check_of_pos
    rw [value_increment below]
    exact Nat.succ_pos _

/-- A step with a carry: of the ids above (0, 2^64 - 1) the first is (1, 0). -/
theorem ordered_and_stepped_carry :
    let a : ElectionId := ⟨0, 18446744073709551615⟩
    a ≠ highest ∧ a.increment = ⟨1, 0⟩ ∧ a < ⟨1, 0⟩ ∧ ∀ c, ¬(a < c ∧ c < ⟨1, 0⟩) := by
  intro a
  have hbelow : a ≠ highest := by decide
  have hnext : a.increment = ⟨1, 0⟩ := by decide
  obtain ⟨habove, hnone, -⟩ := ordered_and_stepped.2.2.1 a hbelow
  rw [hnext] at habove hnone
  exact ⟨hbelow, hnext, habove, hnone⟩

/-- The step from the highest id leads below it, to an id that no client may present. -/
theorem highest_steps_to_zero :
    ¬highest < highest.increment ∧ highest.increment.check = .error .zeroElectionId :=
  ⟨by decide, rfl⟩

end RouteProgramming.ElectionId
