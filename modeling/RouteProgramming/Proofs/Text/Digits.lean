import RouteProgramming.Text.Decimal
import RouteProgramming.Text.Hexadecimal

/-! Numbers in digits, decimal and hexadecimal alike. Reading what was written
gives the number back, also from the start of a longer text, provided that no
digit follows; and a number below `base ^ k` takes no more than `k` digits. -/

namespace RouteProgramming.Text

/-! ### A system of digits -/

/-- A base with its digits, as they are written and read. -/
structure Numerals where
  base : Nat
  digit : Nat → Char
  value? : Char → Option Nat
  one_lt_base : 1 < base
  value?_digit : ∀ n, value? (digit n) = some (n % base)

namespace Numerals

variable (N : Numerals)

/-- The digits of `n`, most significant first. -/
def write (n : Nat) : List Char :=
  if n < N.base then [N.digit n] else write (n / N.base) ++ [N.digit n]
termination_by n
decreasing_by
  have := N.one_lt_base
  exact Nat.div_lt_self (by omega) this

/-- The number that is written by more digits after those of `n`. -/
def readFrom (n : Nat) (cs : List Char) : Option Nat :=
  cs.foldlM (fun n c => (N.value? c).map (N.base * n + ·)) n

theorem write_of_lt {n : Nat} (h : n < N.base) : N.write n = [N.digit n] := by
  rw [write, if_pos h]

theorem write_of_ge {n : Nat} (h : N.base ≤ n) : N.write n = N.write (n / N.base) ++ [N.digit n] := by
  rw [write, if_neg (Nat.not_lt.2 h)]

/-- What holds of numbers of one digit and is kept by one digit more holds of all numbers. -/
theorem digit_induction {P : Nat → Prop} (one : ∀ n, n < N.base → P n)
    (more : ∀ n, N.base ≤ n → P (n / N.base) → P n) (n : Nat) : P n := by
  induction n using Nat.strongRecOn with
  | ind n ih =>
    rcases Nat.lt_or_ge n N.base with h | h
    · exact one n h
    · have := N.one_lt_base
      exact more n h (ih _ (Nat.div_lt_self (by omega) this))

/-- The digits are determined by how they are written one after the other. -/
theorem eq_write {f : Nat → List Char}
    (h : ∀ n, f n = if n < N.base then [N.digit n] else f (n / N.base) ++ [N.digit n]) (n : Nat) :
    f n = N.write n := by
  induction n using N.digit_induction with
  | one n hn => rw [h, if_pos hn, N.write_of_lt hn]
  | more n hn ih => rw [h, if_neg (Nat.not_lt.2 hn), N.write_of_ge hn, ih]

theorem write_ne_nil (n : Nat) : N.write n ≠ [] := by
  rw [write]
  split <;> simp

theorem mem_write {n : Nat} {c : Char} (h : c ∈ N.write n) : ∃ m, c = N.digit m := by
  induction n using N.digit_induction with
  | one n hn =>
    rw [N.write_of_lt hn, List.mem_singleton] at h
    exact ⟨n, h⟩
  | more n hn ih =>
    rw [N.write_of_ge hn, List.mem_append, List.mem_singleton] at h
    exact h.elim ih fun h => ⟨n, h⟩

theorem length_write_le {n k : Nat} (h : n < Nat.pow N.base (k + 1)) : (N.write n).length ≤ k + 1 := by
  induction n using N.digit_induction generalizing k with
  | one n hn => rw [N.write_of_lt hn, List.length_singleton]; omega
  | more n hn ih =>
    rw [N.write_of_ge hn, List.length_append, List.length_singleton]
    cases k with
    | zero => exact absurd (Nat.lt_of_lt_of_eq h (Nat.pow_one _)) (Nat.not_lt.2 hn)
    | succ k =>
      have hsplit : Nat.pow N.base (k + 2) = N.base * Nat.pow N.base (k + 1) := Nat.pow_succ'
      exact Nat.succ_le_succ (ih (Nat.div_lt_of_lt_mul (Nat.lt_of_lt_of_eq h hsplit)))

/-- No digit before the others is a zero, for a number has as many digits as it needs. -/
theorem head_write_ne {n : Nat} (h : 0 < n) : (N.write n).head? ≠ some (N.digit 0) := by
  induction n using N.digit_induction with
  | one n hn =>
    rw [N.write_of_lt hn, List.head?_cons]
    intro he
    have hv := congrArg N.value? (Option.some.inj he)
    rw [N.value?_digit, N.value?_digit, Nat.mod_eq_of_lt hn, Nat.zero_mod] at hv
    cases hv
    exact Nat.lt_irrefl 0 h
  | more n hn ih =>
    have := N.one_lt_base
    obtain ⟨c, hc⟩ := Option.isSome_iff_exists.1 (List.isSome_head?.2 (N.write_ne_nil (n / N.base)))
    have hlead := ih (Nat.div_pos hn (by omega))
    rw [hc] at hlead
    rw [N.write_of_ge hn, List.head?_append, hc, Option.some_or]
    exact hlead

theorem readFrom_append (n : Nat) (xs ys : List Char) :
    N.readFrom n (xs ++ ys) = (N.readFrom n xs).bind (N.readFrom · ys) :=
  List.foldlM_append

theorem readFrom_digit (n m : Nat) : N.readFrom n [N.digit m] = some (N.base * n + m % N.base) := by
  simp [readFrom, N.value?_digit]

theorem read_write (n : Nat) : N.readFrom 0 (N.write n) = some n := by
  induction n using N.digit_induction with
  | one n hn => rw [N.write_of_lt hn, readFrom_digit, Nat.mul_zero, Nat.zero_add, Nat.mod_eq_of_lt hn]
  | more n hn ih =>
    rw [N.write_of_ge hn, readFrom_append, ih, Option.bind_some, readFrom_digit, Nat.div_add_mod]

end Numerals

/-! ### A run of digits at the start of a text -/

/-- The text does not start with a character of the class. -/
def Stops (p : Char → Bool) (cs : List Char) : Prop := ∀ c ∈ cs.head?, p c = false

theorem Stops.nil (p : Char → Bool) : Stops p [] := nofun

theorem Stops.cons {p : Char → Bool} {c : Char} (h : p c = false) (cs : List Char) : Stops p (c :: cs) := by
  intro d hd
  cases hd
  exact h

theorem Stops.takeWhile_append {p : Char → Bool} {xs rest : List Char} (h : Stops p rest) (hxs : ∀ c ∈ xs, p c) :
    (xs ++ rest).takeWhile p = xs := by
  rw [List.takeWhile_append_of_pos hxs]
  cases rest with
  | nil => simp
  | cons c cs => simp [h c rfl]

theorem Stops.dropWhile_append {p : Char → Bool} {xs rest : List Char} (h : Stops p rest) (hxs : ∀ c ∈ xs, p c) :
    (xs ++ rest).dropWhile p = rest := by
  rw [List.dropWhile_append_of_pos hxs]
  cases rest with
  | nil => simp
  | cons c cs => simp [h c rfl]

/-! ### Decimal -/

namespace Decimal

theorem digitValue?_digit (n : Nat) : digitValue? (digit n) = some (n % 10) := by
  have h : ∀ m < 10, digitValue? (Char.ofNat (48 + m)) = some m := by decide
  exact h (n % 10) (Nat.mod_lt n (by decide))

theorem isDigit_digit (n : Nat) : (digit n).isDigit := by
  have h : ∀ m < 10, (Char.ofNat (48 + m)).isDigit := by decide
  exact h (n % 10) (Nat.mod_lt n (by decide))

def numerals : Numerals := ⟨10, digit, digitValue?, by decide, digitValue?_digit⟩

theorem render_eq_write (n : Nat) : render n = numerals.write n := numerals.eq_write render.eq_1 n

theorem render_ne_nil (n : Nat) : render n ≠ [] := by
  rw [render_eq_write]
  exact numerals.write_ne_nil n

theorem isDigit_of_mem_render {n : Nat} {c : Char} (h : c ∈ render n) : c.isDigit := by
  rw [render_eq_write] at h
  obtain ⟨m, rfl⟩ := numerals.mem_write h
  exact isDigit_digit m

theorem length_render_le {n k : Nat} (h : n < Nat.pow 10 (k + 1)) : (render n).length ≤ k + 1 := by
  rw [render_eq_write]
  exact numerals.length_write_le h

theorem digits?_render (n : Nat) : digits? (render n) = some n := by
  have h : digits? (render n) = numerals.readFrom 0 (render n) := by
    cases hr : render n with
    | nil => exact absurd hr (render_ne_nil n)
    | cons c cs => rfl
  rw [h, render_eq_write, numerals.read_write]

theorem canonical?_render (n : Nat) : canonical? (render n) = some n := by
  rcases Nat.eq_zero_or_pos n with rfl | hpos
  · rw [render]
    rfl
  · have hd := digits?_render n
    have hz : (render n).head? ≠ some '0' := by
      rw [render_eq_write]
      exact numerals.head_write_ne hpos
    cases hr : render n with
    | nil => exact absurd hr (render_ne_nil n)
    | cons c cs =>
      rw [hr] at hz hd
      have hc : c ≠ '0' := fun he => hz (congrArg some he)
      rw [canonical?, hd]
      · exact fun he => hc (List.cons.inj he).1
      · exact fun _ he => hc (List.cons.inj he).1

theorem accumulate_append (bound n : Nat) (xs ys : List Char) :
    accumulate bound n (xs ++ ys) = (accumulate bound n xs).bind (accumulate bound · ys) := by
  induction xs generalizing n with
  | nil => rfl
  | cons c cs ih =>
    rw [List.cons_append, accumulate, accumulate]
    split
    · rfl
    · split
      · exact ih _
      · rfl

theorem accumulate_render {bound n : Nat} (h : n < bound) : accumulate bound 0 (render n) = .ok n := by
  rw [render_eq_write]
  induction n using numerals.digit_induction with
  | one n hn =>
    have hv : digitValue? (numerals.digit n) = some n :=
      (digitValue?_digit n).trans (congrArg some (Nat.mod_eq_of_lt hn))
    simp [numerals.write_of_lt hn, accumulate, hv, h]
  | more n hn ih =>
    have hv : digitValue? (numerals.digit n) = some (n % 10) := digitValue?_digit n
    have hsum : 10 * (n / 10) + n % 10 = n := Nat.div_add_mod n 10
    rw [numerals.write_of_ge hn, accumulate_append, ih (Nat.lt_of_le_of_lt (Nat.div_le_self n _) h)]
    simp only [Except.bind, accumulate, hv]
    rw [show numerals.base = 10 from rfl, hsum, if_pos h]

/-- A number needs no sign to be read. -/
theorem unsigned_render {bound n : Nat} (h : n < bound) : unsigned bound (render n) = .ok n := by
  have ha := accumulate_render h
  cases hr : render n with
  | nil => exact absurd hr (render_ne_nil n)
  | cons c cs =>
    have hc : c ≠ '+' := by
      rintro rfl
      exact absurd (isDigit_of_mem_render (hr ▸ List.mem_cons_self : '+' ∈ render n)) (by decide)
    rw [hr] at ha
    rw [unsigned, ha]
    all_goals
      intros
      simp_all

end Decimal

/-! ### Hexadecimal -/

namespace Hexadecimal

theorem digitValue?_digit (n : Nat) : digitValue? (digit n) = some (n % 16) := by
  have h : ∀ m < 16, digitValue? (digit m) = some m := by decide
  rw [← h (n % 16) (Nat.mod_lt n (by decide)), digit, digit, Nat.mod_mod]

def numerals : Numerals := ⟨16, digit, digitValue?, by decide, digitValue?_digit⟩

theorem render_eq_write (n : Nat) : render n = numerals.write n := numerals.eq_write render.eq_1 n

theorem render_ne_nil (n : Nat) : render n ≠ [] := by
  rw [render_eq_write]
  exact numerals.write_ne_nil n

theorem isDigit_of_mem_render {n : Nat} {c : Char} (h : c ∈ render n) : isDigit c := by
  rw [render_eq_write] at h
  obtain ⟨m, rfl⟩ := numerals.mem_write h
  rw [isDigit, show digitValue? (numerals.digit m) = some (m % 16) from digitValue?_digit m]
  rfl

theorem length_render_le {n k : Nat} (h : n < Nat.pow 16 (k + 1)) : (render n).length ≤ k + 1 := by
  rw [render_eq_write]
  exact numerals.length_write_le h

theorem digits?_render (n : Nat) : digits? (render n) = some n := by
  have h : digits? (render n) = numerals.readFrom 0 (render n) := by
    cases hr : render n with
    | nil => exact absurd hr (render_ne_nil n)
    | cons c cs => rfl
  rw [h, render_eq_write, numerals.read_write]

end Hexadecimal

end RouteProgramming.Text
