/-
reduce-trigram.py on any file of rows with a label below 256^3 and a count: the
rows may come in any order and a label may come more than once.
-/

import Packetpig.Cube.TrigramCube
import Packetpig.Library.Groups

namespace Packetpig

open Text Groups

structure LabelRow where
  key : Bytes
  filterString : Bytes
  label : Nat
  count : Nat
  noComma : comma ∉ key ∧ comma ∉ filterString
  noFeed : lineFeed ∉ key ∧ lineFeed ∉ filterString
  small : label < 256 ^ 3

namespace LabelRow

def text (row : LabelRow) : Bytes :=
  [comma].intercalate [row.key, row.filterString, decimal row.label, decimal row.count]

def bin (row : LabelRow) : Nat × Nat × Nat :=
  (row.label % 256 / 8, row.label / 256 % 256 / 8, row.label / 65536 / 8)

theorem bin_small (row : LabelRow) : row.bin.1 < 32 ∧ row.bin.2.1 < 32 ∧ row.bin.2.2 < 32 := by
  have small : row.label < 16777216 := row.small
  simp only [bin]
  omega

def file (rows : List LabelRow) (ended : Bool) : Bytes :=
  if ended then rows.flatMap fun row => row.text ++ [lineFeed]
  else [lineFeed].intercalate (rows.map text)

theorem lineFeed_notMem_text (row : LabelRow) : lineFeed ∉ row.text := by
  unfold text
  intro member
  rcases mem_intercalate member with separator | ⟨column, inRow, inColumn⟩
  · exact absurd separator (by decide)
  · simp only [List.mem_cons, List.not_mem_nil, or_false] at inRow
    rcases inRow with rfl | rfl | rfl | rfl
    · exact row.noFeed.1 inColumn
    · exact row.noFeed.2 inColumn
    · exact notMem_decimal rfl _ inColumn
    · exact notMem_decimal rfl _ inColumn

private theorem text_ne_nil (row : LabelRow) : row.text ≠ [] := by
  unfold text
  rw [List.intercalate_cons_cons]
  simp

theorem fileLines_file (rows : List LabelRow) (ended : Bool) :
    fileLines (file rows ended) = rows.map text := by
  have plain : ∀ line ∈ rows.map text, lineFeed ∉ line := by
    intro line member
    obtain ⟨row, -, same⟩ := List.mem_map.mp member
    rw [← same]
    exact row.lineFeed_notMem_text
  cases ended with
  | true =>
      rw [← fileLines_ended (rows.map text) plain, List.flatMap_map]
      rfl
  | false =>
      rcases List.eq_nil_or_concat' rows with rfl | ⟨init, last, rfl⟩
      · rfl
      · have pieces : (file (init ++ [last]) false).splitOn lineFeed =
            (init ++ [last]).map text :=
          List.splitOn_intercalate lineFeed plain (by simp)
        unfold fileLines
        rw [pieces, if_neg]
        simpa using text_ne_nil last

end LabelRow

namespace ReduceTrigram

private theorem strip_text (row : LabelRow) :
    strip row.text = [comma].intercalate
      [row.key.dropWhile isSpace, row.filterString, decimal row.label, decimal row.count] := by
  obtain ⟨init, last, shape⟩ := (List.eq_nil_or_concat (decimal row.count)).resolve_left
    (decimal_ne_nil _)
  have finish : isSpace last = false :=
    (isDigit_spec (by omega) (isDigit_of_mem_decimal (by rw [shape]; simp))).1
  have whole := strip_front row.key
    (row.filterString ++ comma :: decimal row.label ++ comma :: init) comma last (by decide) finish
  unfold LabelRow.text
  rw [shape]
  simpa [List.intercalate] using whole

theorem binOf_label (row : LabelRow) :
    binOf row.label = ((row.bin.1 : Int), (row.bin.2.1 : Int), (row.bin.2.2 : Int)) := by
  have small : row.label < 16777216 := row.small
  have x : (row.label : Int) % (n : Int) = (row.label % 256 : Nat) := rfl
  have y : ((row.label : Int) % (n : Int) ^ 2 - (row.label % 256 : Nat)) / (n : Int) =
      (row.label / 256 % 256 : Nat) := by
    rw [n]
    omega
  have z : ((row.label : Int) % (n : Int) ^ 3 - (row.label % 256 : Nat) -
      (row.label / 256 % 256 : Nat) * (n : Int)) / (n : Int) ^ 2 = (row.label / 65536 : Nat) := by
    rw [n]
    omega
  simp only [binOf, x, y, z, LabelRow.bin]
  rfl

theorem addLine_text (row : LabelRow) (new : Bin → Int) :
    addLine new row.text =
      .ok (Function.update new (binOf row.label) (new (binOf row.label) + row.count)) := by
  have numeral : ∀ value, comma ∉ decimal value := notMem_decimal rfl
  have noComma : comma ∉ row.key.dropWhile isSpace := fun member =>
    row.noComma.1 ((List.dropWhile_suffix _).subset member)
  have bits : (strip row.text).splitOn comma =
      [row.key.dropWhile isSpace, row.filterString, decimal row.label, decimal row.count] := by
    rw [strip_text, List.splitOn_intercalate]
    · simp [noComma, row.noComma.2, numeral]
    · simp
  simp only [addLine, bits, List.getElem?_cons_succ, List.getElem?_cons_zero, readInt_decimal]

def binSum (rows : List LabelRow) (bin : Nat × Nat × Nat) : Nat :=
  groupSum LabelRow.bin LabelRow.count rows bin

theorem foldlM_addLine (rows : List LabelRow) (start : Bin → Int) :
    ∃ new, (rows.map LabelRow.text).foldlM addLine start = .ok new ∧
      ∀ x y z : Nat, new (x, y, z) = start (x, y, z) + (binSum rows (x, y, z) : Int) := by
  induction rows generalizing start with
  | nil => exact ⟨start, rfl, by simp [binSum, groupSum, group]⟩
  | cons row rows ih =>
      obtain ⟨new, run, sums⟩ :=
        ih (Function.update start (binOf row.label) (start (binOf row.label) + row.count))
      refine ⟨new, ?_, ?_⟩
      · rw [List.map_cons, List.foldlM_cons, addLine_text]
        exact run
      · intro x y z
        have here : ((x : Int), (y : Int), (z : Int)) = binOf row.label ↔ row.bin = (x, y, z) := by
          rw [binOf_label, eq_comm]
          simp only [Prod.ext_iff, Nat.cast_inj]
        have sum := groupSum_cons LabelRow.bin LabelRow.count row rows (x, y, z)
        rw [sums, Function.update_apply]
        unfold binSum
        rw [sum]
        by_cases inside : row.bin = (x, y, z)
        · rw [if_pos (here.mpr inside), if_pos inside, ← here.mpr inside]
          push_cast
          omega
        · rw [if_neg (mt here.mp inside), if_neg inside, Nat.zero_add]

theorem reduceTrigram_file (rows : List LabelRow) (ended : Bool) :
    ∃ new, reduceTrigram (LabelRow.file rows ended) = .ok (output new) ∧
      ∀ x y z : Nat, new (x, y, z) = (binSum rows (x, y, z) : Int) := by
  obtain ⟨new, run, sums⟩ := foldlM_addLine rows fun _ => 0
  refine ⟨new, ?_, ?_⟩
  · unfold reduceTrigram
    rw [LabelRow.fileLines_file, run]
    rfl
  · intro x y z
    rw [sums, Int.zero_add]

private theorem flatMap_range_map {α : Type} (rows columns : Nat) (f : Nat → Nat → α) :
    ((List.range rows).flatMap fun row => (List.range columns).map (f row)) =
      (List.range (rows * columns)).map fun i => f (i / columns) (i % columns) := by
  induction rows with
  | zero => simp
  | succ rows ih =>
      rw [List.range_succ, List.flatMap_append, ih, List.flatMap_singleton, Nat.succ_mul,
        List.range_add, List.map_append, List.map_map]
      congr 1
      apply List.map_congr_left
      intro column member
      have small := List.mem_range.mp member
      have high : (rows * columns + column) / columns = rows := by
        rw [Nat.mul_comm, Nat.mul_add_div (by omega), Nat.div_eq_of_lt small, Nat.add_zero]
      have low : (rows * columns + column) % columns = column := Nat.mul_add_mod_of_lt small
      simp only [Function.comp_apply, high, low]

theorem product_eq (n : Nat) :
    product n = (List.range (n * (n * n))).map fun i =>
      (i / (n * n), i % (n * n) / n, i % (n * n) % n) := by
  simp only [product, flatMap_range_map n n, flatMap_range_map n (n * n)]

theorem mem_product {n : Nat} {bin : Nat × Nat × Nat} :
    bin ∈ product n ↔ bin.1 < n ∧ bin.2.1 < n ∧ bin.2.2 < n := by
  rcases bin with ⟨x, y, z⟩
  simp [product]

theorem product_nodup (n : Nat) : (product n).Nodup := by
  rw [product_eq]
  apply List.Nodup.map_on _ List.nodup_range
  intro i _ i' _ same
  simp only [Prod.mk.injEq] at same
  rw [← Nat.div_add_mod i (n * n), ← Nat.div_add_mod i' (n * n),
    ← Nat.div_add_mod (i % (n * n)) n, ← Nat.div_add_mod (i' % (n * n)) n, same.1, same.2.1,
    same.2.2]

theorem product_getElem? {n x y z : Nat} (xSmall : x < n) (ySmall : y < n) (zSmall : z < n) :
    (product n)[x * (n * n) + y * n + z]? = some (x, y, z) := by
  have row : y * n + z < n * n := by
    have step := Nat.mul_le_mul_right n (show y + 1 ≤ n from ySmall)
    rw [Nat.add_mul, Nat.one_mul] at step
    omega
  have bound : x * (n * n) + y * n + z < n * (n * n) := by
    have step := Nat.mul_le_mul_right (n * n) (show x + 1 ≤ n from xSmall)
    rw [Nat.add_mul, Nat.one_mul] at step
    omega
  rw [product_eq, List.getElem?_map, List.getElem?_range bound, Option.map_some, Nat.add_assoc,
    Nat.mul_comm x, Nat.mul_add_div (by omega), Nat.div_eq_of_lt row, Nat.mul_add_mod,
    Nat.mod_eq_of_lt row, Nat.mul_comm y, Nat.mul_add_div (by omega), Nat.div_eq_of_lt zSmall,
    Nat.mul_add_mod, Nat.mod_eq_of_lt zSmall, Nat.add_zero, Nat.add_zero]

/-- The counts of the rows with a label in the bin, added up; the bins with a
coordinate from 32 on are empty, and every row is in one bin. -/
structure Reduced (rows : List LabelRow) (numbers : List Nat) : Prop where
  count : numbers.length = 256 ^ 3
  sums : ∀ x y z, x < 256 → y < 256 → z < 256 →
    numbers[x * 65536 + y * 256 + z]? =
      some (((rows.filter fun row => row.bin = (x, y, z)).map LabelRow.count).sum)
  once : ∀ row ∈ rows, ∃! bin, bin ∈ product 256 ∧ row ∈ rows.filter fun row => row.bin = bin
  unused : ∀ x y z, x < 256 → y < 256 → z < 256 → 32 ≤ x ∨ 32 ≤ y ∨ 32 ≤ z →
    numbers[x * 65536 + y * 256 + z]? = some 0
  total : numbers.sum = (rows.map LabelRow.count).sum

theorem reduced_binSum (rows : List LabelRow) :
    Reduced rows ((product 256).map (binSum rows)) where
  count := by
    rw [List.length_map, product_eq, List.length_map, List.length_range]
    rfl
  sums := by
    intro x y z xSmall ySmall zSmall
    have place : x * 65536 + y * 256 + z = x * (256 * 256) + y * 256 + z := rfl
    rw [place, List.getElem?_map, product_getElem? xSmall ySmall zSmall]
    rfl
  once := by
    intro row member
    obtain ⟨xSmall, ySmall, zSmall⟩ := row.bin_small
    refine ⟨row.bin, ⟨mem_product.mpr (by omega), ?_⟩, ?_⟩
    · exact List.mem_filter.mpr ⟨member, decide_eq_true rfl⟩
    · intro bin found
      exact (of_decide_eq_true (List.mem_filter.mp found.2).2).symm
  unused := by
    intro x y z xSmall ySmall zSmall outside
    have place : x * 65536 + y * 256 + z = x * (256 * 256) + y * 256 + z := rfl
    rw [place, List.getElem?_map, product_getElem? xSmall ySmall zSmall, Option.map_some,
      Option.some.injEq]
    apply groupSum_eq_zero
    intro row _ same
    have small := row.bin_small
    simp only [same] at small
    omega
  total := by
    apply sum_groupSum (product_nodup 256)
    intro row _
    obtain ⟨xSmall, ySmall, zSmall⟩ := row.bin_small
    exact mem_product.mpr (by omega)

/-- The script prints the sums of all bins on one line. -/
theorem prints_reduced (rows : List LabelRow) (ended : Bool) :
    ∃ numbers, reduceTrigram (LabelRow.file rows ended) =
        .ok ([comma].intercalate (numbers.map decimal) ++ [lineFeed]) ∧
      Reduced rows numbers := by
  obtain ⟨new, run, sums⟩ := reduceTrigram_file rows ended
  refine ⟨(product 256).map (binSum rows), ?_, reduced_binSum rows⟩
  have texts : ((product n).map fun bin => integer (new (bin.1, bin.2.1, bin.2.2))) =
      ((product 256).map (binSum rows)).map decimal := by
    rw [List.map_map]
    apply List.map_congr_left
    intro bin _
    rw [sums, integer_natCast]
    rfl
  rw [run]
  unfold output
  rw [texts]

end ReduceTrigram

end Packetpig
