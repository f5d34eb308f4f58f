/-
Rounding of rational numbers to a number of significant binary digits, to
nearest with ties to even, and what it does to the integer part of a number.
There are no bounds on the exponent.
-/

import Mathlib.Data.Int.Log
import Mathlib.Data.Rat.Floor
import Mathlib.Tactic.Linarith
import Mathlib.Tactic.Ring
import Mathlib.Tactic.FieldSimp
import Mathlib.Tactic.Positivity

namespace Packetpig.Rounding

/-- The nearest integer, the even one of two. -/
def nearestEven (number : Rat) : Int :=
  let below := ⌊number⌋
  if number - below < 1 / 2 then below
  else if 1 / 2 < number - below then below + 1
  else if 2 ∣ below then below
  else below + 1

theorem nearestEven_cases (number : Rat) :
    nearestEven number = ⌊number⌋ ∧ number ≤ ⌊number⌋ + 1 / 2 ∨
      nearestEven number = ⌊number⌋ + 1 ∧ ⌊number⌋ + 1 / 2 ≤ number := by
  simp only [nearestEven]
  split
  · exact .inl ⟨rfl, by linarith⟩
  · split
    · exact .inr ⟨rfl, by linarith⟩
    · split
      · exact .inl ⟨rfl, by linarith⟩
      · exact .inr ⟨rfl, by linarith⟩

theorem le_nearestEven {whole : Int} {number : Rat} (least : (whole : Rat) ≤ number) :
    whole ≤ nearestEven number := by
  have floor : whole ≤ ⌊number⌋ := Int.le_floor.mpr least
  rcases nearestEven_cases number with ⟨same, -⟩ | ⟨same, -⟩
  · rw [same]
    exact floor
  · rw [same]
    omega

theorem nearestEven_le_add (number : Rat) : (nearestEven number : Rat) ≤ number + 1 / 2 := by
  have floor := Int.floor_le number
  rcases nearestEven_cases number with ⟨same, -⟩ | ⟨same, high⟩
  · rw [same]
    linarith
  · rw [same]
    push_cast
    linarith

theorem nearestEven_eq_iff (whole : Int) (part : Rat) (low : 0 ≤ part) (high : part < 1) :
    nearestEven (whole + part) = whole ↔ part < 1 / 2 ∨ part = 1 / 2 ∧ 2 ∣ whole := by
  have floor : ⌊(whole : Rat) + part⌋ = whole := by
    rw [Int.floor_eq_iff]
    constructor
    · linarith
    · linarith
  have rest : (whole : Rat) + part - whole = part := by ring
  have more : whole + 1 ≠ whole := by omega
  simp only [nearestEven, floor, rest]
  split
  · rename_i less
    exact iff_of_true rfl (.inl less)
  · rename_i notLess
    split
    · rename_i above
      exact iff_of_false more fun either =>
        either.elim notLess fun half => ne_of_gt above half.1
    · rename_i notAbove
      have half : part = 1 / 2 := le_antisymm (not_lt.mp notAbove) (not_lt.mp notLess)
      split
      · rename_i even
        exact iff_of_true rfl (.inr ⟨half, even⟩)
      · rename_i odd
        exact iff_of_false more fun either => either.elim notLess fun both => odd both.2

theorem nearestEven_lt_iff {whole : Int} (even : 2 ∣ whole) (number : Rat) :
    nearestEven number < whole ↔ number < whole - 1 / 2 := by
  constructor
  · intro below
    by_contra near
    have small : number < whole := by
      by_contra large
      have above := le_nearestEven (not_lt.mp large)
      omega
    -- The number lies in the upper half of the unit in front of the even number.
    have split := nearestEven_eq_iff (whole - 1) (number - (whole - 1))
      (by linarith) (by linarith)
    have same : ((whole - 1 : Int) : Rat) + (number - (whole - 1)) = number := by
      push_cast
      ring
    rw [same] at split
    have front : whole - 1 ≤ nearestEven number := le_nearestEven (by push_cast; linarith)
    have isFront : nearestEven number = whole - 1 := by omega
    rcases split.mp isFront with low | ⟨-, odd⟩
    · linarith
    · omega
  · intro far
    have step := nearestEven_le_add number
    have below : (nearestEven number : Rat) < whole := by linarith
    exact_mod_cast below

def spacing (precision : Nat) (number : Rat) : Rat :=
  2 ^ (Int.log 2 |number| - ((precision : Int) - 1))

def round (precision : Nat) (number : Rat) : Rat :=
  nearestEven (number / spacing precision number) * spacing precision number

theorem spacing_pos (precision : Nat) (number : Rat) : 0 < spacing precision number :=
  zpow_pos (by norm_num) _

theorem round_nonneg (precision : Nat) {number : Rat} (nonnegative : 0 ≤ number) :
    0 ≤ round precision number := by
  have positive := spacing_pos precision number
  have quotient : ((0 : Int) : Rat) ≤ number / spacing precision number := by
    rw [Int.cast_zero]
    positivity
  have rounded : (0 : Rat) ≤ nearestEven (number / spacing precision number) := by
    exact_mod_cast le_nearestEven quotient
  unfold round
  positivity

theorem round_le_add (precision : Nat) (number : Rat) :
    round precision number ≤ number + spacing precision number / 2 := by
  have positive := spacing_pos precision number
  have step := nearestEven_le_add (number / spacing precision number)
  have scaled := mul_le_mul_of_nonneg_right step (le_of_lt positive)
  unfold round
  rw [add_mul, div_mul_cancel₀ _ (ne_of_gt positive)] at scaled
  linarith

theorem abs_nearestEven_sub_le (number : Rat) : |(nearestEven number : Rat) - number| ≤ 1 / 2 := by
  have floor := Int.floor_le number
  have above := Int.lt_floor_add_one number
  rw [abs_le]
  rcases nearestEven_cases number with ⟨same, low⟩ | ⟨same, high⟩
  · rw [same]
    constructor
    · linarith
    · linarith
  · rw [same]
    push_cast
    constructor
    · linarith
    · linarith

theorem abs_round_sub_le (precision : Nat) (number : Rat) :
    |round precision number - number| ≤ spacing precision number / 2 := by
  have positive := spacing_pos precision number
  have step := abs_nearestEven_sub_le (number / spacing precision number)
  have scaled := mul_le_mul_of_nonneg_right step (le_of_lt positive)
  calc |round precision number - number|
      = |((nearestEven (number / spacing precision number) : Rat) -
          number / spacing precision number) * spacing precision number| := by
        rw [sub_mul, div_mul_cancel₀ _ (ne_of_gt positive), round]
    _ = |(nearestEven (number / spacing precision number) : Rat) -
          number / spacing precision number| * spacing precision number := by
        rw [abs_mul, abs_of_pos positive]
    _ ≤ spacing precision number / 2 := by linarith

@[simp] theorem round_zero (precision : Nat) : round precision 0 = 0 := by
  have none : nearestEven 0 = 0 := by
    have rounded := nearestEven_eq_iff 0 0 le_rfl one_pos
    rw [Int.cast_zero, add_zero] at rounded
    exact rounded.mpr (.inl (by norm_num))
  rw [round, zero_div, none, Int.cast_zero, zero_mul]

theorem abs_round_sub_le_of_lt (precision : Nat) {number : Rat} {exponent : Int}
    (below : |number| < 2 ^ exponent) :
    |round precision number - number| ≤ 2 ^ (exponent - precision) / 2 := by
  by_cases zero : number = 0
  · rw [zero, round_zero, sub_zero, abs_zero]
    exact le_of_lt (half_pos (zpow_pos two_pos _))
  · have digits : Int.log 2 |number| < exponent :=
      (Int.lt_zpow_iff_log_lt Nat.one_lt_two (abs_pos.mpr zero)).mp (by exact_mod_cast below)
    have unit : spacing precision number ≤ 2 ^ (exponent - precision) := by
      unfold spacing
      exact zpow_le_zpow_right₀ (by norm_num) (by omega)
    have moved := abs_round_sub_le precision number
    linarith

theorem spacing_le {precision : Nat} (digits : precision ≠ 0) {number : Rat}
    (positive : 0 < number) : spacing precision number ≤ number := by
  unfold spacing
  rw [abs_of_pos positive]
  calc (2 : Rat) ^ (Int.log 2 number - ((precision : Int) - 1))
      ≤ 2 ^ Int.log 2 number := zpow_le_zpow_right₀ (by norm_num) (by omega)
    _ ≤ number := by exact_mod_cast Int.zpow_log_le_self Nat.one_lt_two positive

theorem round_le_double {precision : Nat} (digits : precision ≠ 0) {number : Rat}
    (nonnegative : 0 ≤ number) : round precision number ≤ 2 * number := by
  rcases eq_or_lt_of_le nonnegative with zero | positive
  · rw [← zero, round_zero, mul_zero]
  · have unit := spacing_le digits positive
    have step := round_le_add precision number
    linarith

theorem round_pos {precision : Nat} (digits : precision ≠ 0) {number : Rat}
    (positive : 0 < number) : 0 < round precision number := by
  have unit := spacing_pos precision number
  have quotient : ((1 : Int) : Rat) ≤ number / spacing precision number := by
    rw [Int.cast_one, one_le_div unit]
    exact spacing_le digits positive
  have rounded : (1 : Rat) ≤ nearestEven (number / spacing precision number) := by
    exact_mod_cast le_nearestEven quotient
  unfold round
  positivity

section Whole

variable {precision whole : Nat} {part : Rat}

theorem log_whole (positive : whole ≠ 0) (low : 0 ≤ part) (high : part < 1) :
    Int.log 2 |(whole : Rat) + part| = Nat.log 2 whole := by
  have atLeast : (1 : Rat) ≤ whole := by exact_mod_cast Nat.one_le_iff_ne_zero.mpr positive
  have floor : ⌊(whole : Rat) + part⌋₊ = whole := by
    rw [Nat.floor_eq_iff (by linarith)]
    constructor
    · linarith
    · linarith
  rw [abs_of_nonneg (by linarith), Int.log_of_one_le_right 2 (by linarith), floor]

variable (positive : whole ≠ 0) (low : 0 ≤ part) (high : part < 1)

include positive low high

theorem spacing_whole : spacing precision (whole + part) =
    2 ^ ((Nat.log 2 whole : Int) - ((precision : Int) - 1)) := by
  rw [spacing, log_whole positive low high]

theorem floor_round_fraction {places : Nat} (some : places ≠ 0)
    (digits : precision = Nat.log 2 whole + 1 + places) :
    ⌊round precision (whole + part)⌋ = whole ↔ 1 / 2 < 2 ^ places * (1 - part) := by
  have power : (0 : Rat) < 2 ^ places := by positivity
  have unit : spacing precision (whole + part) = ((2 : Rat) ^ places)⁻¹ := by
    rw [spacing_whole positive low high, digits, ← zpow_natCast, ← zpow_neg]
    congr 1
    push_cast
    ring
  have scaled : (whole + part) / spacing precision (whole + part) =
      (whole + part) * 2 ^ places := by
    rw [unit, div_inv_eq_mul]
  have even : (2 : Int) ∣ (whole + 1) * 2 ^ places :=
    Dvd.dvd.mul_left (dvd_pow_self 2 some) _
  have least : (((whole : Int) * 2 ^ places : Int) : Rat) ≤ (whole + part) * 2 ^ places := by
    push_cast
    exact mul_le_mul_of_nonneg_right (by linarith) (le_of_lt power)
  have above := le_nearestEven least
  have next := nearestEven_lt_iff even ((whole + part) * 2 ^ places)
  rw [Int.floor_eq_iff, round, scaled, unit, ← div_eq_mul_inv, le_div_iff₀ power,
    div_lt_iff₀ power]
  constructor
  · intro both
    have below : nearestEven ((whole + part) * 2 ^ places) < (whole + 1) * 2 ^ places := by
      exact_mod_cast both.2
    have far := next.mp below
    push_cast at far
    linarith
  · intro far
    have below := next.mpr (by push_cast; linarith)
    constructor
    · exact_mod_cast above
    · exact_mod_cast below

theorem floor_round_integer (digits : precision = Nat.log 2 whole + 1) :
    ⌊round precision (whole + part)⌋ = whole ↔ part < 1 / 2 ∨ part = 1 / 2 ∧ 2 ∣ whole := by
  have unit : spacing precision (whole + part) = 1 := by
    rw [spacing_whole positive low high, digits]
    simp
  have rounded := nearestEven_eq_iff whole part low high
  rw [round, unit, div_one, mul_one, Int.floor_intCast]
  rw [Int.cast_natCast] at rounded
  rw [rounded, Int.natCast_dvd_natCast.symm]
  rfl

theorem floor_round_multiple {places : Nat} (some : places ≠ 0)
    (digits : precision + places = Nat.log 2 whole + 1) :
    ⌊round precision (whole + part)⌋ = whole ↔ 2 ^ places ∣ whole := by
  have power : (0 : Rat) < 2 ^ places := by positivity
  have one : 1 ≤ places := Nat.one_le_iff_ne_zero.mpr some
  have atLeast : (2 : Rat) ≤ 2 ^ places := by
    have step := pow_le_pow_right₀ (show (1 : Rat) ≤ 2 by norm_num) one
    linarith
  have unit : spacing precision (whole + part) = 2 ^ places := by
    rw [spacing_whole positive low high, ← zpow_natCast]
    congr 1
    omega
  have floor : ⌊round precision (whole + part)⌋ =
      nearestEven ((whole + part) / 2 ^ places) * 2 ^ places := by
    rw [round, unit]
    have integer : (nearestEven ((whole + part) / 2 ^ places) : Rat) * 2 ^ places =
        ((nearestEven ((whole + part) / 2 ^ places) * 2 ^ places : Int) : Rat) := by
      push_cast
      ring
    rw [integer, Int.floor_intCast]
  rw [floor]
  constructor
  · intro same
    have divides : (2 : Int) ^ places ∣ whole := ⟨_, (mul_comm _ _).trans same |>.symm⟩
    exact_mod_cast divides
  · intro divides
    rcases divides with ⟨quotient, same⟩
    have split : ((whole : Rat) + part) / 2 ^ places =
        ((quotient : Int) : Rat) + part / 2 ^ places := by
      rw [same]
      push_cast
      field_simp
    have small : part / 2 ^ places < 1 / 2 := by
      rw [div_lt_iff₀ power]
      linarith
    have rounded := (nearestEven_eq_iff quotient (part / 2 ^ places)
      (div_nonneg low (le_of_lt power)) (by linarith)).mpr (.inl small)
    rw [split, rounded, same]
    push_cast
    ring

end Whole

theorem floor_round_zero {precision : Nat} {part : Rat} (low : 0 ≤ part)
    (far : part + 1 / 2 ^ (precision + 1) < 1) : ⌊round precision part⌋ = 0 := by
  have half : (0 : Rat) < 1 / 2 ^ (precision + 1) := by positivity
  have above := round_nonneg precision low
  have fine : spacing precision part / 2 ≤ 1 / 2 ^ (precision + 1) ∨ part = 0 := by
    rcases eq_or_lt_of_le low with zero | positive
    · exact .inr zero.symm
    · left
      have below : Int.log 2 part < 0 := by
        apply (Int.lt_zpow_iff_log_lt (by norm_num) positive).mp
        rw [zpow_zero]
        linarith
      have unit : spacing precision part ≤ 2 ^ (-(precision : Int)) := by
        rw [spacing, abs_of_pos positive]
        exact zpow_le_zpow_right₀ (by norm_num) (by omega)
      rw [zpow_neg, zpow_natCast] at unit
      rw [pow_succ, one_div, mul_inv]
      linarith
  rw [Int.floor_eq_iff]
  constructor
  · exact_mod_cast above
  · rcases fine with fine | zero
    · have step := round_le_add precision part
      push_cast
      linarith
    · rw [zero]
      simp [round, nearestEven]

end Packetpig.Rounding
