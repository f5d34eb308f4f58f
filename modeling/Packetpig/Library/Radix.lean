/-
Byte strings of a fixed width as numbers in base 256, most significant byte
first. In this order the numbers count through the strings lexicographically.
-/

import Packetpig.Library.Text
import Mathlib.Tactic.IntervalCases

namespace Packetpig.Radix

open Text

def value (key : Bytes) : Nat :=
  key.foldl (fun sum digit => sum * 256 + digit.toNat) 0

/-- The byte string of a given width that spells a number, modulo `256 ^ width`. -/
def digits : Nat → Nat → Bytes
  | 0, _ => []
  | width + 1, number => digits width (number / 256) ++ [UInt8.ofNat number]

@[simp] theorem value_nil : value [] = 0 := rfl

@[simp] theorem value_concat (key : Bytes) (digit : Byte) :
    value (key ++ [digit]) = value key * 256 + digit.toNat := by
  simp [value, List.foldl_append]

theorem value_replicate_zero (width : Nat) : value (List.replicate width 0) = 0 := by
  induction width with
  | zero => rfl
  | succ width ih => simp [List.replicate_succ', ih]

@[simp] theorem digits_length (width number : Nat) : (digits width number).length = width := by
  induction width generalizing number with
  | zero => rfl
  | succ width ih => simp [digits, ih]

theorem value_lt (key : Bytes) : value key < 256 ^ key.length := by
  induction key using List.reverseRecOn with
  | nil => exact Nat.one_pos
  | append_singleton key digit ih =>
      have bounded := digit.toNat_lt
      rw [value_concat, List.length_append, List.length_singleton, Nat.pow_succ]
      omega

theorem value_digits (width number : Nat) :
    value (digits width number) = number % 256 ^ width := by
  induction width generalizing number with
  | zero => simp [digits, Nat.mod_one]
  | succ width ih =>
      rw [digits, value_concat, ih, Nat.pow_succ', Nat.mod_mul]
      simp only [UInt8.toNat_ofNat']
      omega

theorem digits_value (key : Bytes) : digits key.length (value key) = key := by
  induction key using List.reverseRecOn with
  | nil => rfl
  | append_singleton key digit ih =>
      have bounded := digit.toNat_lt
      have high : (value key * 256 + digit.toNat) / 256 = value key := by omega
      have low : UInt8.ofNat (value key * 256 + digit.toNat) = digit := by
        apply UInt8.toNat_inj.mp
        simp only [UInt8.toNat_ofNat']
        omega
      rw [List.length_append, List.length_singleton, digits, value_concat, high, low, ih]

theorem digits_value_of_length {width : Nat} {key : Bytes} (atWidth : key.length = width) :
    digits width (value key) = key := by
  rw [← atWidth, digits_value]

def keys (width : Nat) : List Bytes :=
  (List.range (256 ^ width)).map (digits width)

theorem mem_keys (width : Nat) (key : Bytes) : key ∈ keys width ↔ key.length = width := by
  unfold keys
  rw [List.mem_map]
  constructor
  · intro found
    rcases found with ⟨number, -, rfl⟩
    exact digits_length width number
  · intro same
    subst same
    exact ⟨value key, List.mem_range.mpr (value_lt key), digits_value key⟩

theorem value_append (left right : Bytes) :
    value (left ++ right) = value left * 256 ^ right.length + value right := by
  induction right using List.reverseRecOn with
  | nil => simp
  | append_singleton right digit ih =>
      rw [← List.append_assoc, value_concat, value_concat, ih, List.length_append,
        List.length_singleton, Nat.pow_succ, Nat.add_mul, Nat.mul_assoc, Nat.add_assoc]

theorem value_cons (digit : Byte) (rest : Bytes) :
    value (digit :: rest) = digit.toNat * 256 ^ rest.length + value rest := by
  have whole := value_append [digit] rest
  rwa [← List.nil_append [digit], value_concat, value_nil, Nat.zero_mul, Nat.zero_add] at whole

theorem lt_of_value_lt {left right : Bytes} (sameLength : left.length = right.length)
    (less : value left < value right) : left < right := by
  induction left generalizing right with
  | nil =>
      rw [List.eq_nil_of_length_eq_zero sameLength.symm] at less
      exact absurd less (Nat.lt_irrefl _)
  | cons digit left ih =>
      cases right with
      | nil => cases sameLength
      | cons digit' right =>
          have tails : left.length = right.length := Nat.succ.inj sameLength
          rw [value_cons, value_cons, tails] at less
          apply List.cons_lt_cons_iff.mpr
          rcases Nat.lt_trichotomy digit.toNat digit'.toNat with smaller | same | larger
          · exact .inl (UInt8.lt_iff_toNat_lt.mpr smaller)
          · rw [same, Nat.add_lt_add_iff_left] at less
            exact .inr ⟨UInt8.toNat_inj.mp same, ih tails less⟩
          · have bounded := value_lt right
            have product := Nat.mul_le_mul_right (256 ^ right.length) larger
            rw [Nat.succ_mul] at product
            omega

theorem keys_pairwise (width : Nat) : (keys width).Pairwise (· < ·) := by
  unfold keys
  rw [List.pairwise_map]
  apply List.Pairwise.imp_of_mem _ List.pairwise_lt_range
  intro left right _ rightAt less
  have bound := List.mem_range.mp rightAt
  apply lt_of_value_lt (by rw [digits_length, digits_length])
  rwa [value_digits, value_digits, Nat.mod_eq_of_lt (less.trans bound), Nat.mod_eq_of_lt bound]

theorem keys_head? (width : Nat) : (keys width).head? = some (List.replicate width 0) := by
  have start := digits_value (List.replicate width 0)
  rw [List.length_replicate, value_replicate_zero] at start
  have positive : 256 ^ width ≠ 0 := Nat.ne_of_gt (Nat.pow_pos (by omega))
  obtain ⟨count, more⟩ := Nat.exists_eq_succ_of_ne_zero positive
  unfold keys
  rw [more, List.range_succ_eq_map, List.map_cons, List.head?_cons, start]

end Packetpig.Radix
