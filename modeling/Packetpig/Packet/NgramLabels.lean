/-
The labels of the rows of PacketNgramRecordReader, which are built in Java's
`int`. They count the keys as long as all keys are below 2^31.
-/

import Packetpig.Library.Word
import Packetpig.Packet.NgramRows

namespace Packetpig.PacketNgramRecordReader

open Text Radix

private theorem ofNat_shift (digit distance : Nat) :
    BitVec.ofNat 32 digit <<< distance = BitVec.ofNat 32 (digit * 2 ^ distance) := by
  apply BitVec.eq_of_toNat_eq
  simp [Nat.shiftLeft_eq, Nat.mod_mul_mod]

private theorem intValue_loop {n : Nat} (small : n ≤ 4) {key : Bytes} (width : key.length = n)
    {i : Nat} (inside : i ≤ n) :
    (List.range i).foldl
        (fun v i => v + BitVec.ofNat 32 (key.getD i 0).toNat <<< ((8 * (n - i - 1)) % 32))
        (0 : Word) =
      BitVec.ofNat 32 (value (key.take i) * 256 ^ (n - i)) := by
  induction i with
  | zero => simp
  | succ i ih =>
      have distance : 8 * (n - i - 1) % 32 = 8 * (n - (i + 1)) := by omega
      have power : (2 : Nat) ^ (8 * (n - (i + 1))) = 256 ^ (n - (i + 1)) := by
        rw [Nat.pow_mul]
      have more : n - i = n - (i + 1) + 1 := by omega
      rw [List.range_succ, List.foldl_append, ih (by omega), List.foldl_cons, List.foldl_nil,
        distance, ofNat_shift, power, value_take_succ key i (by omega), more, Nat.pow_succ,
        ← BitVec.ofNat_add]
      congr 1
      ring

theorem intValue_eq {n : Nat} (small : n ≤ 4) {key : Bytes} (width : key.length = n) :
    intValue n key = BitVec.ofNat 32 (value key) := by
  have loop := intValue_loop small width (Nat.le_refl n)
  rw [← width, List.take_length, Nat.sub_self, Nat.pow_zero, Nat.mul_one, width] at loop
  exact loop

theorem intValue_toInt {n : Nat} (small : n ≤ 3) {key : Bytes} (width : key.length = n) :
    (intValue n key).toInt = value key := by
  have bound : value key < 2 ^ 24 := by
    have below := value_lt key
    rw [width] at below
    have power : 256 ^ n ≤ 256 ^ 3 := Nat.pow_le_pow_right (by omega) small
    omega
  rw [intValue_eq (by omega) width, Word.toInt_eq_toNat]
  · rw [BitVec.toNat_ofNat, Nat.mod_eq_of_lt (by omega)]
  · rw [BitVec.toNat_ofNat, Nat.mod_eq_of_lt (by omega)]
    omega

def labels (rows : List (Keyed NgramRow)) : List Int :=
  rows.map fun keyed => keyed.tuple.label.toInt

/-- A label is the number that its key spells, and the labels of the rows count up
from 0. -/
structure LabelsRight (n : Nat) (rows : List (Keyed NgramRow)) : Prop where
  values : ∀ key, key.length = n → (intValue n key).toInt = value key
  count : labels rows = (List.range (256 ^ n)).map Int.ofNat
  increasing : (labels rows).Pairwise (· < ·)
  distinct : (labels rows).Nodup

theorem small_of_values {n : Nat}
    (values : ∀ key : Bytes, key.length = n → (intValue n key).toInt = value key) : n ≤ 3 := by
  by_contra large
  have spelled := values (List.replicate n 255) List.length_replicate
  have full := (value_succ_eq_iff (List.replicate n 255)).mpr
    fun digit member => List.eq_of_mem_replicate member
  have bound := BitVec.toInt_lt (x := intValue n (List.replicate n 255))
  have power : 256 ^ 4 ≤ 256 ^ n := Nat.pow_le_pow_right (by omega) (by omega)
  rw [List.length_replicate] at full
  omega

private theorem labelsRight_of_count {n : Nat} {rows : List (Keyed NgramRow)}
    (values : ∀ key : Bytes, key.length = n → (intValue n key).toInt = value key)
    (count : labels rows = (List.range (256 ^ n)).map Int.ofNat) : LabelsRight n rows := by
  have increasing : (labels rows).Pairwise (· < ·) := by
    rw [count, List.pairwise_map]
    exact List.pairwise_lt_range.imp fun less => Int.ofNat_lt.mpr less
  exact ⟨values, count, increasing, increasing.imp fun less => Int.ne_of_lt less⟩

theorem labels_rows (filter : PacketFilter) {n : Nat} (small : n ≤ 3) (cache : NgramCache) :
    labels ((keys n).map fun key => ⟨0, row filter n cache key⟩) =
      (List.range (256 ^ n)).map Int.ofNat := by
  unfold labels keys
  rw [List.map_map, List.map_map]
  apply List.map_congr_left
  intro number member
  have bound := List.mem_range.mp member
  change (intValue n (digits n number)).toInt = _
  rw [intValue_toInt small (digits_length n number), value_digits, Nat.mod_eq_of_lt bound]
  rfl

/-- The rows of a capture have the right labels exactly for keys of three bytes
at most. -/
theorem labelsRight_iff {σ : Type} (input : PcapInputStream σ) (decode : PcapPacket → Frame)
    (filter : PacketFilter) {n : Nat} (positive : 0 < n) {is final : σ}
    {packets : List PcapPacket} (run : input.Delivers is packets .ioException final) :
    (∃ rows last, Yields (nextKeyValue input decode) (initializeReader filter n is) rows
      .returnedFalse last ∧ LabelsRight n rows) ↔ n ≤ 3 := by
  constructor
  · intro right
    rcases right with ⟨rows, last, -, right⟩
    exact small_of_values right.values
  · intro small
    obtain ⟨last, rows⟩ := yields_rows input decode filter n positive run
    refine ⟨_, last, rows, labelsRight_of_count ?_ (labels_rows filter small _)⟩
    intro key width
    exact intValue_toInt small width

theorem labelsRight_two : ∃ rows last,
    Yields (nextKeyValue captureInputStream fun _ => .other)
      (initializeReader ⟨0, 0, []⟩ 2 (Capture.fresh [])) rows .returnedFalse last ∧
      LabelsRight 2 rows :=
  (labelsRight_iff captureInputStream _ ⟨0, 0, []⟩ (by omega)
    (captureInputStream_delivers [])).mpr (by omega)

/-- With four bytes the label of the key in the middle is negative. -/
theorem label_negative : (intValue 4 [128, 0, 0, 0]).toInt = -2147483648 ∧
    value [128, 0, 0, 0] = 2147483648 ∧
    ¬ ∃ rows last, Yields (nextKeyValue captureInputStream fun _ => .other)
      (initializeReader ⟨0, 0, []⟩ 4 (Capture.fresh [])) rows .returnedFalse last ∧
        LabelsRight 4 rows := by
  refine ⟨by decide, by decide, ?_⟩
  intro right
  rcases right with ⟨rows, last, -, right⟩
  exact absurd (small_of_values right.values) (by omega)

end Packetpig.PacketNgramRecordReader
