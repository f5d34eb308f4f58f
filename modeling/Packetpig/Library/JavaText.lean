/-
Text operations as the Java class library has them: `String.split` on one
character, `Integer.parseInt`, `List.toString` and `BufferedReader.readLine`,
over byte strings that stand for text in a single byte character set.
-/

import Packetpig.Library.Text
import Mathlib.Data.List.DropRight

namespace Packetpig.JavaText

open Text

def dropTrailingEmpty (parts : List Bytes) : List Bytes :=
  parts.rdropWhile (· = [])

/-- `text.split(separator)`: the pieces between separators without the empty
ones at the end; a text without the separator is its own only piece. -/
def split (separator : Byte) (text : Bytes) : List Bytes :=
  if separator ∈ text then dropTrailingEmpty (text.splitOn separator) else [text]

private theorem splitOn_intercalate_cut (separator : Byte) (pieces : List Bytes)
    (nonempty : pieces ≠ []) :
    ([separator].intercalate pieces).splitOn separator =
      pieces.flatMap fun piece => piece.splitOn separator := by
  induction pieces with
  | nil => exact absurd rfl nonempty
  | cons first pieces ih =>
      cases pieces with
      | nil => simp
      | cons second pieces =>
          rw [List.intercalate_cons_cons, List.append_assoc, List.singleton_append,
            List.splitOn_append_cons_self, ih (List.cons_ne_nil _ _)]
          rfl

theorem split_intercalate (separator : Byte) (pieces : List Bytes) (several : 2 ≤ pieces.length) :
    split separator ([separator].intercalate pieces) =
      dropTrailingEmpty (pieces.flatMap fun piece => piece.splitOn separator) := by
  have member : separator ∈ [separator].intercalate pieces := by
    match pieces, several with
    | _ :: _ :: _, _ => simp
  have nonempty : pieces ≠ [] := by
    intro same
    subst same
    exact absurd several (by simp)
  rw [split, if_pos member, splitOn_intercalate_cut separator pieces nonempty]

theorem dropTrailingEmpty_append (left : List Bytes) {right : List Bytes}
    (kept : dropTrailingEmpty right ≠ []) :
    dropTrailingEmpty (left ++ right) = left ++ dropTrailingEmpty right := by
  have some : (right.reverse.dropWhile fun piece => decide (piece = [])) ≠ [] := by
    intro nothing
    exact kept (by rw [dropTrailingEmpty, List.rdropWhile, nothing, List.reverse_nil])
  rw [dropTrailingEmpty, dropTrailingEmpty, List.rdropWhile, List.rdropWhile, List.reverse_append,
    List.dropWhile_append, if_neg (by simpa using some), List.reverse_append, List.reverse_reverse]

theorem dropTrailingEmpty_ne_nil {parts : List Bytes} {piece : Bytes} (member : piece ∈ parts)
    (nonempty : piece ≠ []) : dropTrailingEmpty parts ≠ [] := by
  intro nothing
  have empty := List.rdropWhile_eq_nil_iff.mp nothing piece member
  exact nonempty (by simpa using empty)

theorem dropTrailingEmpty_concat_nil (parts : List Bytes) :
    dropTrailingEmpty (parts ++ [[]]) = dropTrailingEmpty parts :=
  List.rdropWhile_concat_pos _ _ _ (by simp)

theorem dropTrailingEmpty_concat (parts : List Bytes) {last : Bytes} (nonempty : last ≠ []) :
    dropTrailingEmpty (parts ++ [last]) = parts ++ [last] :=
  List.rdropWhile_concat_neg _ _ _ (by simpa using nonempty)

private theorem splitOn_plain {separator : Byte} {piece : Bytes} (plain : separator ∉ piece) :
    piece.splitOn separator = [piece] := by
  have pieces : ∀ text ∈ [piece], separator ∉ text := List.forall_mem_singleton.mpr plain
  have single := List.splitOn_intercalate separator pieces (List.cons_ne_nil _ _)
  rwa [List.intercalate_singleton] at single

theorem split_intercalate_of_plain {separator : Byte} {pieces : List Bytes}
    (several : 2 ≤ pieces.length) (plain : ∀ piece ∈ pieces, separator ∉ piece) :
    split separator ([separator].intercalate pieces) = dropTrailingEmpty pieces := by
  have same : pieces.flatMap (fun piece => piece.splitOn separator) = pieces := by
    rw [List.flatMap_congr fun piece member => splitOn_plain (plain piece member)]
    exact List.flatMap_singleton' pieces
  rw [split_intercalate separator pieces several, same]

theorem split_front {separator : Byte} {front : Bytes} (plain : separator ∉ front)
    (nonempty : front ≠ []) (more : Bytes) :
    ∃ pieces, split separator (front ++ separator :: more) = front :: pieces := by
  have cut : (front ++ separator :: more).splitOn separator = front :: more.splitOn separator := by
    rw [List.splitOn_append_cons_self, splitOn_plain plain]
    rfl
  have kept : dropTrailingEmpty (front :: more.splitOn separator) ≠ [] :=
    dropTrailingEmpty_ne_nil List.mem_cons_self nonempty
  rw [split, if_pos (by simp), cut]
  obtain ⟨first, pieces, shape⟩ := List.exists_cons_of_ne_nil kept
  have prefix' : first :: pieces <+: front :: more.splitOn separator := by
    rw [← shape]
    exact List.rdropWhile_prefix _ _
  rw [shape, (List.cons_prefix_cons.mp prefix').1]
  exact ⟨pieces, rfl⟩

/-- A joined row has all its columns if the last one is not empty and has no
separator in it; the others may have some. -/
theorem length_le_split_intercalate {separator : Byte} (pieces : List Bytes) {last : Bytes}
    (several : pieces ≠ []) (plain : separator ∉ last) (nonempty : last ≠ []) :
    (pieces ++ [last]).length ≤
      (split separator ([separator].intercalate (pieces ++ [last]))).length := by
  have positive := List.length_pos_of_ne_nil several
  have atLeast : pieces.length ≤ (pieces.flatMap fun piece => piece.splitOn separator).length := by
    rw [List.length_flatMap, ← List.length_map (f := fun piece => (piece.splitOn separator).length)]
    apply List.length_le_sum_of_one_le
    intro count member
    obtain ⟨piece, -, same⟩ := List.mem_map.mp member
    rw [← same]
    exact List.length_pos_of_ne_nil (List.splitOn_ne_nil separator piece)
  rw [split_intercalate separator _ (by simp; omega), List.flatMap_append, List.flatMap_singleton,
    splitOn_plain plain, dropTrailingEmpty_concat _ nonempty]
  simpa using atLeast

theorem mem_split {separator : Byte} {text piece : Bytes} (member : piece ∈ split separator text) :
    separator ∉ piece ∧ piece ⊆ text := by
  by_cases present : separator ∈ text
  · rw [split, if_pos present] at member
    exact mem_splitOn ((List.rdropWhile_prefix _ _).subset member)
  · rw [split, if_neg present, List.mem_singleton] at member
    subst member
    exact ⟨present, fun _ => id⟩

theorem split_getLast_ne_nil {separator : Byte} {text : Bytes} (present : separator ∈ text)
    (nonempty : split separator text ≠ []) : (split separator text).getLast nonempty ≠ [] := by
  have last := List.rdropWhile_last_not (fun piece => piece = []) (text.splitOn separator)
  simp only [split, if_pos present, dropTrailingEmpty] at nonempty ⊢
  simpa using last nonempty

/-- `Integer.parseInt`: a sign and at least one decimal digit, 32 bits. -/
def parseInt (text : Bytes) : Option Int :=
  let negative := text.head? = some 45
  let digits := if negative ∨ text.head? = some 43 then text.tail else text
  if digits ≠ [] ∧ digits.all (isDigit 10) then
    let magnitude := (Nat.ofDigits 10 (digits.reverse.map digitValue) : Int)
    let number := if negative then -magnitude else magnitude
    if -2 ^ 31 ≤ number ∧ number < 2 ^ 31 then some number else none
  else none

theorem parseInt_digits {text : Bytes} (nonempty : text ≠ [])
    (digits : ∀ letter ∈ text, isDigit 10 letter = true)
    (small : Nat.ofDigits 10 (text.reverse.map digitValue) < 2 ^ 31) :
    parseInt text = some ((Nat.ofDigits 10 (text.reverse.map digitValue) : Nat) : Int) := by
  obtain ⟨first, rest, rfl⟩ := List.exists_cons_of_ne_nil nonempty
  obtain ⟨-, notMinus, notPlus, -⟩ := isDigit_spec (by omega) (digits first List.mem_cons_self)
  have all : (first :: rest).all (isDigit 10) = true := List.all_eq_true.mpr digits
  simp only [parseInt, List.head?_cons, Option.some.injEq, notMinus, notPlus, or_self, if_false,
    all, ne_eq, reduceCtorEq, not_false_eq_true, and_self, if_true]
  have magnitude : (Nat.ofDigits 10 ((first :: rest).reverse.map digitValue) : Int) =
      ((Nat.ofDigits 10 ((first :: rest).reverse.map digitValue) : Nat) : Int) :=
    (Nat.coe_ofDigits Int 10 _).symm
  rw [magnitude, if_pos ⟨by omega, by omega⟩]

theorem parseInt_decimal {value : Nat} (small : value < 2 ^ 31) :
    parseInt (decimal value) = some (value : Int) := by
  rw [parseInt_digits (decimal_ne_nil value) (fun _ => isDigit_of_mem_decimal), decimal_value]
  rwa [decimal_value]

theorem parseInt_single {letter : Byte} {value : Int} (read : parseInt [letter] = some value) :
    value ≤ 9 := by
  by_cases signed : letter = 45 ∨ letter = 43
  · rcases signed with rfl | rfl <;> cases read
  · rw [not_or] at signed
    by_cases digit : isDigit 10 letter = true
    · have bounded : digitValue letter < 10 := of_decide_eq_true digit
      have value' := parseInt_digits (List.cons_ne_nil letter [])
        (List.forall_mem_singleton.mpr digit) (by simp; omega)
      rw [value', Option.some.injEq] at read
      rw [← read]
      simp
      omega
    · simp [parseInt, signed, digit] at read

/-- `toString()` of a list of strings. -/
def listToString (parts : List Bytes) : Bytes :=
  ascii "[" ++ (ascii ", ").intercalate parts ++ ascii "]"

/-- `.` in a regular expression: everything but a line terminator. -/
def dot (letter : Byte) : Bool :=
  letter ≠ lineFeed ∧ letter ≠ carriageReturn ∧ letter ≠ 0x85

theorem dot_of_digit {letter : Byte} (digit : isDigit 10 letter = true) : dot letter = true := by
  refine decide_eq_true ⟨?_, ?_, ?_⟩ <;>
  · intro same
    subst same
    cases digit

/-- `trim()`: every character up to the blank counts as one. -/
def trim (text : Bytes) : Bytes :=
  (text.dropWhile fun letter => letter ≤ space).rdropWhile fun letter => letter ≤ space

/-- The characters of the first line and what follows its terminator, which is
`\n`, `\r` or `\r\n`. -/
def takeLine : Bytes → Bytes × Bytes
  | [] => ([], [])
  | letter :: rest =>
      if letter = lineFeed then ([], rest)
      else if letter = carriageReturn then
        ([], if rest.head? = some lineFeed then rest.tail else rest)
      else ((letter :: (takeLine rest).1), (takeLine rest).2)

/-- `readLine`: nothing at the end of the text, else the next line. -/
def readLine (text : Bytes) : Option (Bytes × Bytes) :=
  if text = [] then none else some (takeLine text)

theorem takeLine_append (line rest : Bytes) (noFeed : lineFeed ∉ line)
    (noReturn : carriageReturn ∉ line) :
    takeLine (line ++ lineFeed :: rest) = (line, rest) := by
  induction line with
  | nil => simp [takeLine]
  | cons letter line ih =>
      rw [List.mem_cons, not_or] at noFeed noReturn
      rw [List.cons_append, takeLine, if_neg (Ne.symm noFeed.1), if_neg (Ne.symm noReturn.1),
        ih noFeed.2 noReturn.2]

theorem readLine_append (line rest : Bytes) (noFeed : lineFeed ∉ line)
    (noReturn : carriageReturn ∉ line) :
    readLine (line ++ lineFeed :: rest) = some (line, rest) := by
  rw [readLine, if_neg (List.append_ne_nil_of_right_ne_nil _ (List.cons_ne_nil _ _)),
    takeLine_append line rest noFeed noReturn]

theorem plain_of_dots {line : Bytes} (dots : ∀ letter ∈ line, dot letter = true) :
    lineFeed ∉ line ∧ carriageReturn ∉ line := by
  constructor
  · intro member
    cases dots lineFeed member
  · intro member
    cases dots carriageReturn member

theorem readLine_of_dots {line : Bytes} (dots : ∀ letter ∈ line, dot letter = true)
    (rest : Bytes) : readLine (line ++ lineFeed :: rest) = some (line, rest) :=
  readLine_append line rest (plain_of_dots dots).1 (plain_of_dots dots).2

theorem takeLine_plain (text : Bytes) :
    lineFeed ∉ (takeLine text).1 ∧ carriageReturn ∉ (takeLine text).1 := by
  induction text with
  | nil => simp [takeLine]
  | cons letter text ih =>
      unfold takeLine
      split
      · simp
      · split
        · simp
        · rename_i notFeed notReturn
          simp only [List.mem_cons, not_or]
          exact ⟨⟨Ne.symm notFeed, ih.1⟩, Ne.symm notReturn, ih.2⟩

theorem takeLine_shorter (text : Bytes) (nonempty : text ≠ []) :
    (takeLine text).2.length < text.length := by
  induction text with
  | nil => exact absurd rfl nonempty
  | cons letter text ih =>
      rw [takeLine, List.length_cons]
      split
      · exact Nat.lt_succ_self _
      · split
        · split
          · rw [List.length_tail]
            omega
          · exact Nat.lt_succ_self _
        · by_cases last : text = []
          · subst last
            exact Nat.zero_lt_one
          · exact Nat.lt_succ_of_lt (ih last)

end Packetpig.JavaText
