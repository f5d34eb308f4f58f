/-
Bit strings, most significant bit first: the low bits of a number and the bits
of a string of bytes.
-/

import Packetpig.Library.Radix

namespace Packetpig.BitString

open Text

/-- The bits of the places below `count`, from the highest one on. -/
def bitsBelow (bit : Nat → Bool) : Nat → List Bool
  | 0 => []
  | count + 1 => bit count :: bitsBelow bit count

def ofByte (byte : Byte) : List Bool := bitsBelow byte.toNat.testBit 8

def ofBytes (bytes : Bytes) : List Bool := bytes.flatMap ofByte

@[simp] theorem bitsBelow_length (bit : Nat → Bool) (count : Nat) :
    (bitsBelow bit count).length = count := by
  induction count with
  | zero => rfl
  | succ count ih => rw [bitsBelow, List.length_cons, ih]

theorem bitsBelow_congr {bit bit' : Nat → Bool} {count : Nat}
    (same : ∀ place < count, bit place = bit' place) :
    bitsBelow bit count = bitsBelow bit' count := by
  induction count with
  | zero => rfl
  | succ count ih =>
      rw [bitsBelow, bitsBelow, same count (Nat.lt_succ_self _),
        ih fun place below => same place (Nat.lt_succ_of_lt below)]

theorem bitsBelow_add (bit : Nat → Bool) (low high : Nat) :
    bitsBelow bit (low + high) =
      bitsBelow (fun place => bit (low + place)) high ++ bitsBelow bit low := by
  induction high with
  | zero => rfl
  | succ high ih =>
      rw [← Nat.add_assoc, bitsBelow, ih]
      rfl

theorem eq_of_take_bitsBelow {bit bit' : Nat → Bool} {count length : Nat}
    (same : (bitsBelow bit count).take length = (bitsBelow bit' count).take length)
    {place : Nat} (below : place < count) (high : count ≤ place + length) :
    bit place = bit' place := by
  induction count generalizing length with
  | zero => cases below
  | succ count ih =>
      cases length with
      | zero => exact absurd below (Nat.not_lt.mpr high)
      | succ length =>
          rw [bitsBelow, bitsBelow, List.take_succ_cons, List.take_succ_cons] at same
          obtain ⟨first, rest⟩ := List.cons.inj same
          by_cases isFirst : place = count
          · rw [isFirst, first]
          · exact ih rest (by omega) (by omega)

@[simp] theorem ofBytes_length (bytes : Bytes) : (ofBytes bytes).length = 8 * bytes.length := by
  induction bytes with
  | nil => rfl
  | cons byte bytes ih =>
      have width : (ofByte byte).length = 8 := bitsBelow_length _ _
      unfold ofBytes at ih ⊢
      rw [List.flatMap_cons, List.length_append, ih, width, List.length_cons]
      omega

private theorem testBit_value_cons (byte : Byte) (bytes : Bytes) (place : Nat) :
    (Radix.value (byte :: bytes)).testBit place =
      if place < 8 * bytes.length then (Radix.value bytes).testBit place
      else byte.toNat.testBit (place - 8 * bytes.length) := by
  have small : Radix.value bytes < 2 ^ (8 * bytes.length) := by
    rw [Nat.pow_mul]
    exact Radix.value_lt bytes
  have power : (256 : Nat) ^ bytes.length = 2 ^ (8 * bytes.length) := by
    rw [Nat.pow_mul]
  rw [Radix.value_cons, power, Nat.mul_comm, Nat.testBit_two_pow_mul_add _ small]

theorem bitsBelow_value (bytes : Bytes) :
    bitsBelow (Radix.value bytes).testBit (8 * bytes.length) = ofBytes bytes := by
  induction bytes with
  | nil => rfl
  | cons byte bytes ih =>
      have high : bitsBelow (fun place =>
          (Radix.value (byte :: bytes)).testBit (8 * bytes.length + place)) 8 = ofByte byte := by
        apply bitsBelow_congr
        intro place _
        rw [testBit_value_cons, if_neg (by omega), Nat.add_sub_cancel_left]
      have low : bitsBelow (Radix.value (byte :: bytes)).testBit (8 * bytes.length) =
          ofBytes bytes := by
        rw [← ih]
        apply bitsBelow_congr
        intro place below
        rw [testBit_value_cons, if_pos below]
      rw [List.length_cons, Nat.mul_succ, bitsBelow_add, high, low]
      rfl

theorem testBit_value {bytes : Bytes} {index place : Nat} {byte : Byte}
    (found : bytes[index]? = some byte) (inside : place < 8) :
    (Radix.value bytes).testBit (8 * (bytes.length - 1 - index) + place) =
      byte.toNat.testBit place := by
  induction bytes generalizing index with
  | nil => cases found
  | cons first bytes ih =>
      rw [testBit_value_cons, List.length_cons]
      cases index with
      | zero =>
          rw [List.getElem?_cons_zero, Option.some.injEq] at found
          subst found
          rw [if_neg (by omega)]
          congr 1
          omega
      | succ index =>
          rw [List.getElem?_cons_succ] at found
          have bound := (List.getElem?_eq_some_iff.mp found).1
          rw [if_pos (by omega), ← ih found]
          congr 1
          omega

def allFresh : Nat → List Nat → Bool
  | _, [] => true
  | seen, number :: numbers => !seen.testBit number && allFresh (seen ||| 1 <<< number) numbers

theorem nodup_of_allFresh {seen : Nat} {numbers : List Nat} (fresh : allFresh seen numbers = true) :
    numbers.Nodup ∧ ∀ number ∈ numbers, seen.testBit number = false := by
  induction numbers generalizing seen with
  | nil => exact ⟨List.nodup_nil, List.forall_mem_nil _⟩
  | cons number numbers ih =>
      rw [allFresh, Bool.and_eq_true, Bool.not_eq_true'] at fresh
      rcases fresh with ⟨here, later⟩
      obtain ⟨once, unset⟩ := ih later
      have apart : ∀ other ∈ numbers, seen.testBit other = false ∧ number ≠ other := by
        intro other member
        have both := unset other member
        rw [Nat.testBit_or, Bool.or_eq_false_iff] at both
        refine ⟨both.1, ?_⟩
        intro same
        subst same
        rw [Nat.one_shiftLeft, Nat.testBit_two_pow_self] at both
        exact absurd both.2 Bool.noConfusion
      constructor
      · rw [List.nodup_cons]
        exact ⟨fun member => (apart number member).2 rfl, once⟩
      · rw [List.forall_mem_cons]
        exact ⟨here, fun other member => (apart other member).1⟩

end Packetpig.BitString
