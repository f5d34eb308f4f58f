/-
What cube.html draws for the stored rows of PacketNgramLoader, compared with
the sums of the trigram counts over the 16 x 16 x 16 cells.

reduce-trigram.py makes bins of 8 byte values but prints one number for each of
256 x 256 x 256 bins, the last number of the key changing fastest. The viewer
reads the first 4096 numbers, the first coordinate changing fastest.
-/

import Packetpig.Cube.ReducedTrigrams
import Packetpig.Packet.NgramLabels
import Mathlib.Algebra.Order.BigOperators.Group.Finset

namespace Packetpig

open Text Radix

/-- The bytes `b2`, `b1` and `b0` of a trigram are its letters from the left. -/
def inCell (w x y z : Nat) (key : Bytes) : Bool :=
  (key.getD 2 0).toNat / w = x && (key.getD 1 0).toNat / w = y && (key.getD 0 0).toNat / w = z

/-- The counts of all trigrams in the cell `[x, y, z]` of side `w`, added up. -/
def cellSum (c : Bytes → Nat) (w x y z : Nat) : Nat :=
  ((keys 3).map fun key => if inCell w x y z key then c key else 0).sum

/-- The viewer draws the sums of the cells, and nothing is lost. -/
def DrawnRight (filterString : Bytes) (c : Bytes → Nat) : Prop :=
  ∃ output, ReduceTrigram.reduceTrigram (trigramFile filterString c) = .ok output ∧
    (∀ entry ∈ Cube.parse output,
      entry.value = some (cellSum c (256 / Cube.n) entry.x entry.y entry.z : Int)) ∧
    ((Cube.parse output).filterMap Cube.Entry.value).sum = (((keys 3).map c).sum : Nat)

private theorem three_letters {key : Bytes} (width : key.length = 3) :
    ∃ b2 b1 b0, key = [b2, b1, b0] := by
  match key, width with
  | [b2, b1, b0], _ => exact ⟨b2, b1, b0, rfl⟩

private theorem value_trigram (b2 b1 b0 : Byte) :
    value [b2, b1, b0] = b2.toNat * 65536 + b1.toNat * 256 + b0.toNat := by
  simp only [value, List.foldl_cons, List.foldl_nil]
  omega

namespace ReduceTrigram

section Rows

variable {filterString : Bytes} (noComma : comma ∉ filterString)
  (noFeed : lineFeed ∉ filterString) (c : Bytes → Nat)

/-- The row of a trigram, whose label needs no reduction. -/
def labelRow (key : Bytes) : LabelRow :=
  { key := decimal 0
    filterString
    label := value key % 256 ^ 3
    count := c key
    noComma := ⟨by decide, noComma⟩
    noFeed := ⟨by decide, noFeed⟩
    small := Nat.mod_lt _ (Nat.pow_pos (by omega)) }

private theorem labelRow_label {key : Bytes} (width : key.length = 3) :
    (labelRow noComma noFeed c key).label = value key := by
  apply Nat.mod_eq_of_lt
  rw [← width]
  exact value_lt key

private theorem labelRow_text {key : Bytes} (width : key.length = 3) :
    (labelRow noComma noFeed c key).text = trigramRow filterString c key := by
  rw [trigramRow, PacketNgramRecordReader.intValue_toInt (by omega) width, integer_natCast,
    LabelRow.text, labelRow_label noComma noFeed c width]
  rfl

private theorem labelRow_bin {key : Bytes} (width : key.length = 3) (x y z : Nat) :
    (labelRow noComma noFeed c key).bin = (x, y, z) ↔ inCell d x y z key = true := by
  rw [LabelRow.bin, labelRow_label noComma noFeed c width]
  obtain ⟨b2, b1, b0, rfl⟩ := three_letters width
  have highest := b2.toNat_lt
  have middle := b1.toNat_lt
  have lowest := b0.toNat_lt
  rw [value_trigram, inCell]
  simp only [Prod.mk.injEq, Bool.and_eq_true, decide_eq_true_eq, List.getD_cons_zero,
    List.getD_cons_succ, and_assoc, d]
  omega

private theorem binSum_labelRow {trigrams : List Bytes}
    (width : ∀ key ∈ trigrams, key.length = 3) (x y z : Nat) :
    binSum (trigrams.map (labelRow noComma noFeed c)) (x, y, z) =
      (trigrams.map fun key => if inCell d x y z key then c key else 0).sum := by
  induction trigrams with
  | nil => rfl
  | cons key trigrams ih =>
      obtain ⟨here, later⟩ := List.forall_mem_cons.mp width
      have rest := ih later
      unfold binSum at rest ⊢
      rw [List.map_cons, Groups.groupSum_cons, rest, List.map_cons, List.sum_cons]
      simp only [labelRow_bin noComma noFeed c here]
      rfl

include noComma noFeed in
theorem reduceTrigram_trigramFile :
    ∃ new, reduceTrigram (trigramFile filterString c) = .ok (output new) ∧
      ∀ x y z : Nat, new (x, y, z) = (cellSum c d x y z : Int) := by
  have width : ∀ key ∈ keys 3, key.length = 3 := fun key member => (mem_keys 3 key).mp member
  have stored : trigramFile filterString c =
      LabelRow.file ((keys 3).map (labelRow noComma noFeed c)) true := by
    unfold trigramFile LabelRow.file
    rw [if_pos rfl, List.flatMap_map]
    apply List.flatMap_congr
    intro key member
    rw [labelRow_text noComma noFeed c (width key member)]
  obtain ⟨new, run, sums⟩ :=
    reduceTrigram_file ((keys 3).map (labelRow noComma noFeed c)) true
  refine ⟨new, by rw [stored, run], ?_⟩
  intro x y z
  rw [sums, binSum_labelRow noComma noFeed c width, cellSum]

end Rows

end ReduceTrigram

private theorem splitOn_output (values : Nat → Nat) {count a : Nat} (bound : a + 1 < count) :
    (([comma].intercalate ((List.range count).map fun i => decimal (values i)) ++
      [lineFeed]).splitOn comma)[a]? = some (decimal (values a)) := by
  have numeral : ∀ value, comma ∉ decimal value := notMem_decimal rfl
  obtain ⟨last, rfl⟩ : ∃ last, count = last + 1 := ⟨count - 1, by omega⟩
  rw [List.range_succ, List.map_append, List.map_singleton,
    splitOn_intercalate_append (by simp [numeral]) (numeral _) (by decide),
    List.getElem?_append_left (by simp; omega), List.getElem?_map,
    List.getElem?_range (by omega), Option.map_some]

/-- What stands at a place of the viewer: the bins of the first letter are not
in use, those of the third fill a row of 256 numbers. -/
def drawnSum (c : Bytes → Nat) (a : Nat) : Nat :=
  cellSum c ReduceTrigram.d 0 (a / 256) (a % 256)

theorem parse_output {c : Bytes → Nat} {new : ReduceTrigram.Bin → Int}
    (sums : ∀ x y z : Nat, new (x, y, z) = (cellSum c ReduceTrigram.d x y z : Int)) :
    Cube.parse (ReduceTrigram.output new) = (List.range 4096).map fun a =>
      { x := a % 16, y := a / 16 % 16, z := a / 256, v := some (decimal (drawnSum c a)) } := by
  unfold Cube.parse
  apply List.map_congr_left
  intro a member
  have bound : a < 4096 := List.mem_range.mp member
  have text : ((ReduceTrigram.output new).splitOn comma)[a]? =
      some (decimal (drawnSum c a)) := by
    rw [ReduceTrigram.output, ReduceTrigram.product_eq, List.map_map]
    simp only [Function.comp_def, sums, integer_natCast]
    rw [splitOn_output _ (by simp only [ReduceTrigram.n]; omega)]
    simp only [ReduceTrigram.n, drawnSum]
    congr 3 <;> omega
  simp only [text, Cube.n, Cube.Entry.mk.injEq, and_true, Nat.reduceMul, true_and]
  omega

theorem value_drawn (x y z sum : Nat) :
    Cube.Entry.value { x, y, z, v := some (decimal sum) } = some (sum : Int) := by
  rw [Cube.Entry.value, Option.bind_some, readInt_decimal]

private theorem sum_drawn (places : List Nat) (sums : Nat → Nat) :
    ((places.map fun a => Cube.Entry.mk (a % 16) (a / 16 % 16) (a / 256)
      (some (decimal (sums a)))).filterMap Cube.Entry.value).sum =
      ((places.map sums).sum : Nat) := by
  induction places with
  | nil => rfl
  | cons a places ih =>
      rw [List.map_cons, List.filterMap_cons_some (value_drawn _ _ _ _), List.sum_cons, ih,
        List.map_cons, List.sum_cons, Nat.cast_add]

private theorem drawnRight_iff_sums {filterString : Bytes} (noComma : comma ∉ filterString)
    (noFeed : lineFeed ∉ filterString) (c : Bytes → Nat) :
    DrawnRight filterString c ↔
      (∀ a < 4096, drawnSum c a = cellSum c 16 (a % 16) (a / 16 % 16) (a / 256)) ∧
        ((List.range 4096).map (drawnSum c)).sum = ((keys 3).map c).sum := by
  obtain ⟨new, run, sums⟩ := ReduceTrigram.reduceTrigram_trigramFile noComma noFeed c
  have total : ((Cube.parse (ReduceTrigram.output new)).filterMap Cube.Entry.value).sum =
      (((List.range 4096).map (drawnSum c)).sum : Nat) := by
    rw [parse_output sums, sum_drawn]
  have places : (∀ entry ∈ Cube.parse (ReduceTrigram.output new),
      entry.value = some (cellSum c (256 / Cube.n) entry.x entry.y entry.z : Int)) ↔
      ∀ a < 4096, drawnSum c a = cellSum c 16 (a % 16) (a / 16 % 16) (a / 256) := by
    rw [parse_output sums, List.forall_mem_map]
    simp only [List.mem_range, value_drawn, Option.some.injEq, Int.natCast_inj, Cube.n]
  constructor
  · intro found
    rcases found with ⟨output, printed, drawn, all⟩
    obtain rfl := Except.ok.inj (run.symm.trans printed)
    rw [total, Int.natCast_inj] at all
    exact ⟨places.mp drawn, all⟩
  · intro found
    rcases found with ⟨drawn, all⟩
    refine ⟨_, run, places.mpr drawn, ?_⟩
    rw [total, all]

/-! ### Which sums agree -/

theorem inCell_iff {w x y z : Nat} {key : Bytes} :
    inCell w x y z key = true ↔
      (key.getD 2 0).toNat / w = x ∧ (key.getD 1 0).toNat / w = y ∧
        (key.getD 0 0).toNat / w = z := by
  simp only [inCell, Bool.and_eq_true, decide_eq_true_eq, and_assoc]

private theorem sum_keys_congr {c : Bytes → Nat} {left right : Bytes → Prop} [DecidablePred left]
    [DecidablePred right]
    (same : ∀ key, key.length = 3 → c key ≠ 0 → (left key ↔ right key)) :
    ((keys 3).map fun key => if left key then c key else 0).sum =
      ((keys 3).map fun key => if right key then c key else 0).sum := by
  refine congrArg List.sum (List.map_congr_left fun key member => ?_)
  by_cases absent : c key = 0
  · simp only [absent, ite_self]
  · simp only [same key ((mem_keys 3 key).mp member) absent]

theorem cellSum_ne_zero_iff {c : Bytes → Nat} {w x y z : Nat} :
    cellSum c w x y z ≠ 0 ↔
      ∃ key, key.length = 3 ∧ c key ≠ 0 ∧ inCell w x y z key = true := by
  rw [cellSum, ne_eq, List.sum_eq_zero_iff_forall_eq_nat]
  constructor
  · intro positive
    push Not at positive
    rcases positive with ⟨term, member, nonzero⟩
    obtain ⟨key, inKeys, rfl⟩ := List.mem_map.mp member
    rw [ite_ne_right_iff] at nonzero
    exact ⟨key, (mem_keys 3 key).mp inKeys, nonzero.2, nonzero.1⟩
  · intro found allZero
    rcases found with ⟨key, width, counted, inside⟩
    apply counted
    have term := allZero _ (List.mem_map.mpr ⟨key, (mem_keys 3 key).mpr width, rfl⟩)
    rwa [if_pos inside] at term

private theorem sum_places (key : Bytes) (count : Nat) :
    (∑ a ∈ Finset.range 4096,
        if inCell ReduceTrigram.d 0 (a / 256) (a % 256) key then count else 0) =
      if (key.getD 2 0).toNat < 8 ∧ (key.getD 1 0).toNat < 128 then count else 0 := by
  have first := (key.getD 0 0).toNat_lt
  have place : ∀ a, inCell ReduceTrigram.d 0 (a / 256) (a % 256) key = true ↔
      (key.getD 2 0).toNat < 8 ∧
        (key.getD 1 0).toNat / 8 * 256 + (key.getD 0 0).toNat / 8 = a := by
    intro a
    rw [inCell_iff]
    simp only [ReduceTrigram.d]
    omega
  simp only [place]
  by_cases low : (key.getD 2 0).toNat < 8
  · simp only [low, true_and, Finset.sum_ite_eq, Finset.mem_range]
    congr 1
    simp only [eq_iff_iff]
    omega
  · simp only [low, false_and, if_false, Finset.sum_const_zero]

private theorem total_drawn (c : Bytes → Nat) :
    ((List.range 4096).map (drawnSum c)).sum =
      ((keys 3).map fun key =>
        if (key.getD 2 0).toNat < 8 ∧ (key.getD 1 0).toNat < 128 then c key else 0).sum := by
  have exchange : ∀ trigrams : List Bytes,
      ((List.range 4096).map fun a => (trigrams.map fun key =>
        if inCell ReduceTrigram.d 0 (a / 256) (a % 256) key then c key else 0).sum).sum =
      (trigrams.map fun key =>
        if (key.getD 2 0).toNat < 8 ∧ (key.getD 1 0).toNat < 128 then c key else 0).sum := by
    intro trigrams
    rw [← List.sum_toFinset _ List.nodup_range, List.toFinset_range]
    induction trigrams with
    | nil => exact Finset.sum_const_zero
    | cons key trigrams ih =>
        simp only [List.map_cons, List.sum_cons]
        rw [Finset.sum_add_distrib, ih, sum_places]
  exact exchange (keys 3)

private theorem kept_of_sum_eq {c : Bytes → Nat} {kept : Bytes → Prop} [DecidablePred kept]
    {trigrams : List Bytes}
    (same : (trigrams.map fun key => if kept key then c key else 0).sum = (trigrams.map c).sum) :
    ∀ key ∈ trigrams, c key ≠ 0 → kept key := by
  have less : ∀ key, (if kept key then c key else 0) ≤ c key := by
    intro key
    split <;> omega
  induction trigrams with
  | nil => intro key member; cases member
  | cons first trigrams ih =>
      have rest : (trigrams.map fun key => if kept key then c key else 0).sum ≤
          (trigrams.map c).sum := List.sum_le_sum fun key _ => less key
      have here := less first
      simp only [List.map_cons, List.sum_cons] at same
      intro key member counted
      rcases List.mem_cons.mp member with rfl | later
      · by_contra dropped
        rw [if_neg dropped] at same
        omega
      · exact ih (by omega) key later counted

section Agreement

variable {c : Bytes → Nat}

private theorem placed_iff
    (agree : ∀ a < 4096, drawnSum c a = cellSum c 16 (a % 16) (a / 16 % 16) (a / 256))
    {x y z : Nat} (xBound : x < 16) (yBound : y < 16) (zBound : z < 16) :
    (∃ key : Bytes, key.length = 3 ∧ c key ≠ 0 ∧ inCell 8 0 z (x + 16 * y) key = true) ↔
      ∃ key : Bytes, key.length = 3 ∧ c key ≠ 0 ∧ inCell 16 x y z key = true := by
  have same := agree (x + 16 * y + 256 * z) (by omega)
  have low : (x + 16 * y + 256 * z) % 256 = x + 16 * y := by omega
  have high : (x + 16 * y + 256 * z) / 256 = z := by omega
  have column : (x + 16 * y + 256 * z) % 16 = x := by omega
  have line : (x + 16 * y + 256 * z) / 16 % 16 = y := by omega
  rw [drawnSum, low, high, column, line] at same
  rw [← cellSum_ne_zero_iff, ← cellSum_ne_zero_iff, ← same, ReduceTrigram.d]

private theorem letters_of_total
    (total : ((List.range 4096).map (drawnSum c)).sum = ((keys 3).map c).sum) {key : Bytes}
    (width : key.length = 3) (counted : c key ≠ 0) :
    (key.getD 2 0).toNat < 8 ∧ (key.getD 1 0).toNat < 128 := by
  rw [total_drawn] at total
  exact kept_of_sum_eq total key ((mem_keys 3 key).mpr width) counted

private theorem column_of_drawn
    (agree : ∀ a < 4096, drawnSum c a = cellSum c 16 (a % 16) (a / 16 % 16) (a / 256))
    (total : ((List.range 4096).map (drawnSum c)).sum = ((keys 3).map c).sum) {key : Bytes}
    (width : key.length = 3) (counted : c key ≠ 0) : (key.getD 0 0).toNat / 8 % 16 = 0 := by
  have low := letters_of_total total width counted
  have byte := (key.getD 0 0).toNat_lt
  obtain ⟨other, otherWidth, otherCounted, inside⟩ :=
    (placed_iff (x := (key.getD 0 0).toNat / 8 % 16) (y := (key.getD 0 0).toNat / 8 / 16)
      (z := (key.getD 1 0).toNat / 8) agree (by omega) (by omega) (by omega)).mp
      ⟨key, width, counted, inCell_iff.mpr (by omega)⟩
  have otherLow := letters_of_total total otherWidth otherCounted
  have place := inCell_iff.mp inside
  omega

private theorem exchanged_of_drawn
    (agree : ∀ a < 4096, drawnSum c a = cellSum c 16 (a % 16) (a / 16 % 16) (a / 256))
    (total : ((List.range 4096).map (drawnSum c)).sum = ((keys 3).map c).sum) {key : Bytes}
    (width : key.length = 3) (counted : c key ≠ 0) :
    ∃ other : Bytes, other.length = 3 ∧ c other ≠ 0 ∧
      (other.getD 1 0).toNat / 8 = (key.getD 0 0).toNat / 16 ∧
      (other.getD 0 0).toNat / 8 = 16 * ((key.getD 1 0).toNat / 16) := by
  have low := letters_of_total total width counted
  have byte := (key.getD 0 0).toNat_lt
  obtain ⟨other, otherWidth, otherCounted, inside⟩ :=
    (placed_iff (x := 0) (y := (key.getD 1 0).toNat / 16) (z := (key.getD 0 0).toNat / 16)
      agree (by omega) (by omega) (by omega)).mpr
      ⟨key, width, counted, inCell_iff.mpr (by omega)⟩
  have place := inCell_iff.mp inside
  exact ⟨other, otherWidth, otherCounted, place.2.1, by omega⟩

private theorem small_of_drawn
    (agree : ∀ a < 4096, drawnSum c a = cellSum c 16 (a % 16) (a / 16 % 16) (a / 256))
    (total : ((List.range 4096).map (drawnSum c)).sum = ((keys 3).map c).sum) {key : Bytes}
    (width : key.length = 3) (counted : c key ≠ 0) :
    (key.getD 2 0).toNat < 8 ∧ (key.getD 1 0).toNat < 8 ∧ (key.getD 0 0).toNat < 8 := by
  -- A drawn cell has a trigram whose two letters are exchanged, one of them scaled.
  have second : ∀ key : Bytes, key.length = 3 → c key ≠ 0 → (key.getD 1 0).toNat < 32 := by
    intro key width counted
    obtain ⟨other, -, -, -, scaled⟩ := exchanged_of_drawn agree total width counted
    have byte := (other.getD 0 0).toNat_lt
    omega
  have first : ∀ key : Bytes, key.length = 3 → c key ≠ 0 → (key.getD 0 0).toNat < 8 := by
    intro key width counted
    obtain ⟨other, otherWidth, otherCounted, scaled, -⟩ :=
      exchanged_of_drawn agree total width counted
    have bound := second other otherWidth otherCounted
    have empty := column_of_drawn agree total width counted
    omega
  have low := letters_of_total total width counted
  have keyFirst := first key width counted
  refine ⟨low.1, ?_, keyFirst⟩
  obtain ⟨other, otherWidth, otherCounted, -, scaled⟩ :=
    exchanged_of_drawn agree total width counted
  have otherFirst := first other otherWidth otherCounted
  -- A second letter from 8 to 15 is drawn where only a larger first letter belongs.
  by_contra large
  obtain ⟨wrong, wrongWidth, wrongCounted, inside⟩ :=
    (placed_iff (x := 0) (y := 0) (z := 1) agree (by omega) (by omega) (by omega)).mp
      ⟨key, width, counted, inCell_iff.mpr (by omega)⟩
  have wrongFirst := first wrong wrongWidth wrongCounted
  have place := inCell_iff.mp inside
  omega

private theorem drawn_of_small
    (small : ∀ key : Bytes, key.length = 3 → c key ≠ 0 →
      (key.getD 2 0).toNat < 8 ∧ (key.getD 1 0).toNat < 8 ∧ (key.getD 0 0).toNat < 8) :
    (∀ a < 4096, drawnSum c a = cellSum c 16 (a % 16) (a / 16 % 16) (a / 256)) ∧
      ((List.range 4096).map (drawnSum c)).sum = ((keys 3).map c).sum := by
  constructor
  · intro a bound
    rw [drawnSum, cellSum, cellSum]
    apply sum_keys_congr
    intro key width counted
    have below := small key width counted
    rw [inCell_iff, inCell_iff, ReduceTrigram.d]
    omega
  · have everywhere : ((keys 3).map c).sum =
        ((keys 3).map fun key => if True then c key else 0).sum := by
      simp only [if_true]
    rw [total_drawn, everywhere]
    apply sum_keys_congr
    intro key width counted
    have below := small key width counted
    simp only [iff_true]
    omega

end Agreement

private theorem small_letters_iff {key : Bytes} (width : key.length = 3) :
    (∀ digit ∈ key, digit < 8) ↔
      (key.getD 2 0).toNat < 8 ∧ (key.getD 1 0).toNat < 8 ∧ (key.getD 0 0).toNat < 8 := by
  obtain ⟨b2, b1, b0, rfl⟩ := three_letters width
  simp only [List.forall_mem_cons, List.not_mem_nil, false_implies, implies_true, and_true,
    List.getD_cons_zero, List.getD_cons_succ, UInt8.lt_iff_toNat_lt, UInt8.reduceToNat]
  constructor
  · intro found
    rcases found with ⟨first, second, third⟩
    exact ⟨third, second, first⟩
  · intro found
    rcases found with ⟨third, second, first⟩
    exact ⟨first, second, third⟩

/-- The picture is right exactly for the tables that count no trigram with a
byte from 8 on. -/
theorem drawnRight_iff {filterString : Bytes} (noComma : comma ∉ filterString)
    (noFeed : lineFeed ∉ filterString) (c : Bytes → Nat) :
    DrawnRight filterString c ↔
      ∀ key : Bytes, key.length = 3 → c key ≠ 0 → ∀ digit ∈ key, digit < 8 := by
  rw [drawnRight_iff_sums noComma noFeed]
  constructor
  · intro found key width counted
    rcases found with ⟨agree, total⟩
    exact (small_letters_iff width).mpr (small_of_drawn agree total width counted)
  · intro small
    exact drawn_of_small fun key width counted =>
      (small_letters_iff width).mp (small key width counted)

theorem drawnRight_small :
    DrawnRight (ascii "tcp:80") fun key => if key = [0, 1, 7] then 2 else 0 := by
  apply (drawnRight_iff (by decide) (by decide) _).mpr
  intro key _ counted
  rw [ite_ne_right_iff] at counted
  rw [counted.1]
  simp only [List.forall_mem_cons, List.not_mem_nil, false_implies, implies_true, and_true]
  exact ⟨by decide, by decide, by decide⟩

/-- One `GET` is not drawn in its cell. -/
theorem single_trigram_misplaced :
    ¬ DrawnRight (ascii "tcp:80") fun key => if key = ascii "GET" then 1 else 0 := by
  intro right
  obtain ⟨agree, total⟩ := (drawnRight_iff_sums (by decide) (by decide) _).mp right
  have width : (ascii "GET").length = 3 := rfl
  have counted : (if ascii "GET" = ascii "GET" then 1 else 0) ≠ 0 := by simp
  exact absurd (small_of_drawn agree total width counted).1 (by decide)

end Packetpig
