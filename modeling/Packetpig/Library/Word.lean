/-
Thirty-two bit words as four bytes, in either byte order, and the signed
reading of a word.
-/

import Packetpig.Library.Text
import Mathlib.Tactic.IntervalCases

namespace Packetpig

abbrev Word := BitVec 32

namespace Word

open Text

def ofBytes (b3 b2 b1 b0 : Byte) : Word :=
  BitVec.ofNat 32 (((b3.toNat * 256 + b2.toNat) * 256 + b1.toNat) * 256 + b0.toNat)

/-- Byte `position` of a word, counted from the least significant one. -/
def byteAt (word : Word) (position : Nat) : Byte :=
  UInt8.ofNat (word.toNat / 256 ^ position)

def bigEndian (word : Word) : Bytes :=
  [byteAt word 3, byteAt word 2, byteAt word 1, byteAt word 0]

def reverseBytes (word : Word) : Word :=
  ofBytes (byteAt word 0) (byteAt word 1) (byteAt word 2) (byteAt word 3)

def littleEndian (word : Word) : Bytes := (bigEndian word).reverse

private theorem byteAt_toNat (word : Word) (position : Nat) :
    (byteAt word position).toNat = word.toNat / 256 ^ position % 256 := by
  simp [byteAt]

@[simp] theorem ofBytes_byteAt (word : Word) :
    ofBytes (byteAt word 3) (byteAt word 2) (byteAt word 1) (byteAt word 0) = word := by
  apply BitVec.eq_of_toNat_eq
  have bounded := word.isLt
  simp only [ofBytes, byteAt_toNat, BitVec.toNat_ofNat]
  omega

theorem byteAt_ofBytes (b3 b2 b1 b0 : Byte) :
    byteAt (ofBytes b3 b2 b1 b0) 3 = b3 ∧ byteAt (ofBytes b3 b2 b1 b0) 2 = b2 ∧
      byteAt (ofBytes b3 b2 b1 b0) 1 = b1 ∧ byteAt (ofBytes b3 b2 b1 b0) 0 = b0 := by
  have h3 := b3.toNat_lt
  have h2 := b2.toNat_lt
  have h1 := b1.toNat_lt
  have h0 := b0.toNat_lt
  refine ⟨?_, ?_, ?_, ?_⟩ <;>
    · apply UInt8.toNat_inj.mp
      simp only [byteAt_toNat, ofBytes, BitVec.toNat_ofNat]
      omega

@[simp] theorem reverseBytes_ofBytes (b3 b2 b1 b0 : Byte) :
    reverseBytes (ofBytes b3 b2 b1 b0) = ofBytes b0 b1 b2 b3 := by
  obtain ⟨e3, e2, e1, e0⟩ := byteAt_ofBytes b3 b2 b1 b0
  simp only [reverseBytes, e3, e2, e1, e0]

@[simp] theorem reverseBytes_reverseBytes (word : Word) :
    reverseBytes (reverseBytes word) = word := by
  conv_lhs => arg 1; rw [reverseBytes]
  rw [reverseBytes_ofBytes, ofBytes_byteAt]

theorem toInt_nonneg_iff (word : Word) : 0 ≤ word.toInt ↔ word.toNat < 2 ^ 31 := by
  rw [BitVec.toInt_eq_toNat_cond]
  have bounded := word.isLt
  split <;> omega

theorem toInt_eq_toNat {word : Word} (small : word.toNat < 2 ^ 31) :
    word.toInt = (word.toNat : Int) := by
  rw [BitVec.toInt_eq_toNat_cond, if_pos (by omega)]

end Word

end Packetpig
