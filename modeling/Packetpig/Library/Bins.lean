/-
Bins of integers: a number is cut off to a multiple of the width, by a division
that rounds toward zero.
-/

import Mathlib.Algebra.Order.Group.Unbundled.Int

namespace Packetpig.Bins

def bin (width number : Int) : Int := number.tdiv width * width

theorem bin_eq_iff {width number : Int} (positive : 1 ≤ width) (nonnegative : 0 ≤ number)
    (start : Int) :
    bin width number = start ↔ width ∣ start ∧ start ≤ number ∧ number < start + width := by
  unfold bin
  rw [Int.tdiv_eq_ediv_of_nonneg nonnegative]
  have below := Int.ediv_mul_le number (show width ≠ 0 by omega)
  have above := Int.lt_ediv_add_one_mul_self number (show 0 < width by omega)
  rw [Int.add_mul, Int.one_mul] at above
  constructor
  · intro same
    rw [same] at below above
    exact ⟨same ▸ Int.dvd_mul_left _ _, below, above⟩
  · intro inside
    rcases inside with ⟨⟨quotient, same⟩, from_start, to_end⟩
    have place : number / width = quotient := by
      apply Int.le_antisymm
      · apply Int.lt_add_one_iff.mp
        apply Int.ediv_lt_of_lt_mul (by omega)
        rw [Int.add_mul, Int.one_mul, Int.mul_comm]
        omega
      · apply Int.le_ediv_of_mul_le (by omega)
        rw [Int.mul_comm]
        omega
    rw [place, same, Int.mul_comm]

end Packetpig.Bins
