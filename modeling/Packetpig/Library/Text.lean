/-
Byte strings and the operations that scripting languages provide for them:
splitting at the first separator, slices with negative bounds, ASCII case
folding, and the textual form of integers.

Nothing here refers to a particular program.
-/

import Mathlib.Data.List.AList
import Mathlib.Data.List.DropRight
import Mathlib.Data.List.TakeWhile
import Mathlib.Data.Nat.Digits.Lemmas

namespace Packetpig.Text

abbrev Byte := UInt8

abbrev Bytes := List Byte

def ascii (literal : String) : Bytes :=
  literal.toList.map fun letter => UInt8.ofNat letter.toNat

def tab : Byte := 9
def lineFeed : Byte := 10
def carriageReturn : Byte := 13
def space : Byte := 32
def comma : Byte := 44
def colon : Byte := 58

def crlf : Bytes := [carriageReturn, lineFeed]

theorem both_of_all {text : Bytes} {first second : Byte → Bool}
    (letters : (text.all fun letter => first letter && second letter) = true) :
    ∀ letter ∈ text, first letter = true ∧ second letter = true := by
  simpa only [List.all_eq_true, Bool.and_eq_true] using letters

/-! ### Splitting at the first separator -/

section SplitOnce

variable {α : Type} [DecidableEq α]

def splitOnce (separator : List α) : List α → Option (List α × List α)
  | [] => none
  | head :: tail =>
      match separator.isPrefixOf? (head :: tail) with
      | some after => some ([], after)
      | none => (splitOnce separator tail).map fun parts => (head :: parts.1, parts.2)

theorem splitOnce_here (separator after : List α) (nonempty : separator ≠ []) :
    splitOnce separator (separator ++ after) = some ([], after) := by
  cases separator with
  | nil => contradiction
  | cons first rest =>
      have found : (first :: rest).isPrefixOf? (first :: (rest ++ after)) = some after :=
        List.isPrefixOf?_eq_some_iff_append_eq.mpr rfl
      simp only [List.cons_append, splitOnce, found]

theorem splitOnce_skip (separator tail : List α) (head : α)
    (absent : ¬ separator <+: head :: tail) :
    splitOnce separator (head :: tail) =
      (splitOnce separator tail).map fun parts => (head :: parts.1, parts.2) := by
  have missing : separator.isPrefixOf? (head :: tail) = none := by
    cases found : separator.isPrefixOf? (head :: tail) with
    | none => rfl
    | some after =>
        exact absurd ⟨after, List.isPrefixOf?_eq_some_iff_append_eq.mp found⟩ absent
  simp only [splitOnce, missing]

theorem splitOnce_append (first : α) (rest before text : List α)
    (absent : first ∉ before) :
    splitOnce (first :: rest) (before ++ text) =
      (splitOnce (first :: rest) text).map fun parts => (before ++ parts.1, parts.2) := by
  induction before with
  | nil => simp
  | cons head tail ih =>
      have different : first ≠ head := List.ne_of_not_mem_cons absent
      have later : first ∉ tail := List.not_mem_of_not_mem_cons absent
      have notHere : ¬ first :: rest <+: head :: (tail ++ text) := by
        intro found
        rcases found with ⟨after, same⟩
        exact different (List.cons.inj same).1
      rw [List.cons_append, splitOnce_skip _ _ _ notHere, ih later, Option.map_map]
      rfl

theorem splitOnce_eq_some (separator text before after : List α)
    (found : splitOnce separator text = some (before, after)) :
    text = before ++ separator ++ after := by
  induction text generalizing before with
  | nil => cases found
  | cons head tail ih =>
      cases here : separator.isPrefixOf? (head :: tail) with
      | some rest =>
          simp only [splitOnce, here, Option.some.injEq, Prod.mk.injEq] at found
          rcases found with ⟨rfl, rfl⟩
          exact (List.isPrefixOf?_eq_some_iff_append_eq.mp here).symm
      | none =>
          simp only [splitOnce, here] at found
          obtain ⟨parts, partsAt, same⟩ := Option.map_eq_some_iff.mp found
          cases same
          rw [ih parts.1 partsAt]
          rfl

theorem splitOnce_first (separator front back before after : List α)
    (found : splitOnce separator (front ++ separator ++ back) = some (before, after)) :
    before.length ≤ front.length := by
  induction front generalizing before with
  | nil =>
      cases separator with
      | nil =>
          cases back with
          | nil => cases found
          | cons head tail =>
              simp only [List.nil_append, splitOnce, List.isPrefixOf?, Option.some.injEq,
                Prod.mk.injEq] at found
              simp [← found.1]
      | cons first rest =>
          rw [List.nil_append, splitOnce_here _ _ (List.cons_ne_nil _ _)] at found
          cases found
          exact Nat.le_refl _
  | cons head front ih =>
      rw [List.cons_append, List.cons_append, splitOnce] at found
      split at found
      · cases found
        exact Nat.zero_le _
      · obtain ⟨parts, later, same⟩ := Option.map_eq_some_iff.mp found
        cases same
        exact Nat.succ_le_succ (ih parts.1 later)

theorem splitOnce_eq_none (separator text : List α) (absent : ¬ separator <:+: text) :
    splitOnce separator text = none := by
  cases found : splitOnce separator text with
  | none => rfl
  | some parts =>
      have same := splitOnce_eq_some separator text parts.1 parts.2 found
      exact absurd ⟨parts.1, parts.2, same.symm⟩ absent

end SplitOnce

/-- A separator whose first letter occurs only once in it does not begin inside
a text that goes on with the separator. -/
theorem not_prefix_before {α : Type} {first : α} {rest before : List α} (once : first ∉ rest)
    (absent : ¬ first :: rest <:+: before) {tail : List α} (behind : tail <:+ before)
    (nonempty : tail ≠ []) (after : List α) :
    ¬ first :: rest <+: tail ++ (first :: after) := by
  intro isPrefix
  rcases List.prefix_or_prefix_of_prefix isPrefix (List.prefix_append tail _) with inside | longer
  · exact absent (inside.isInfix.trans behind.isInfix)
  · -- The letter behind `tail` would have to be a later letter of the separator.
    rcases longer with ⟨more, same⟩
    obtain ⟨head, tail', rfl⟩ := List.exists_cons_of_ne_nil nonempty
    rw [← same] at isPrefix
    have remaining := List.prefix_append_right_inj (head :: tail') |>.mp isPrefix
    cases more with
    | nil =>
        rw [List.append_nil] at same
        exact absent (same ▸ behind.isInfix)
    | cons next more =>
        have nextIs := (List.cons_prefix_cons.mp remaining).1
        have restIs := (List.cons.inj same).2
        apply once
        rw [← restIs, nextIs]
        exact List.mem_append_right _ List.mem_cons_self

theorem split_at_first {α : Type} {mark : α} {left left' right right' : List α}
    (absent : mark ∉ left) (absent' : mark ∉ left')
    (same : left ++ mark :: right = left' ++ mark :: right') : left = left' ∧ right = right' := by
  induction left generalizing left' with
  | nil =>
      cases left' with
      | nil => exact ⟨rfl, (List.cons.inj same).2⟩
      | cons head left' => exact absurd ((List.cons.inj same).1 ▸ List.mem_cons_self) absent'
  | cons head left ih =>
      cases left' with
      | nil => exact absurd ((List.cons.inj same).1 ▸ List.mem_cons_self) absent
      | cons head' left' =>
          obtain ⟨rfl, tails⟩ := List.cons.inj same
          obtain ⟨rfl, rights⟩ := ih (fun member => absent (List.mem_cons_of_mem _ member))
            (fun member => absent' (List.mem_cons_of_mem _ member)) tails
          exact ⟨rfl, rights⟩

/-- `text[:bound]`, a negative bound counting from the end. -/
def sliceTo {α : Type} (text : List α) (bound : Int) : List α :=
  text.take (if bound < 0 then bound + text.length else bound).toNat

def sliceFrom {α : Type} (text : List α) (bound : Int) : List α :=
  text.drop (if bound < 0 then bound + text.length else bound).toNat

def slice {α : Type} (text : List α) (low high : Int) : List α :=
  (sliceTo text high).drop (if low < 0 then low + text.length else low).toNat

def item {α : Type} (text : List α) (index : Int) : Option α :=
  let index := if index < 0 then index + text.length else index
  if index < 0 then none else text[index.toNat]?

@[simp] theorem sliceTo_natCast {α : Type} (text : List α) (bound : Nat) :
    sliceTo text bound = text.take bound := by
  have positive : ¬ (bound : Int) < 0 := by omega
  simp [sliceTo, positive]

@[simp] theorem sliceFrom_natCast {α : Type} (text : List α) (bound : Nat) :
    sliceFrom text bound = text.drop bound := by
  have positive : ¬ (bound : Int) < 0 := by omega
  simp [sliceFrom, positive]

theorem sliceFrom_suffix {α : Type} (text : List α) (bound : Int) :
    sliceFrom text bound <:+ text :=
  List.drop_suffix _ _

theorem sliceFrom_length_le {α : Type} (text : List α) (bound : Int) :
    (sliceFrom text bound).length ≤ text.length :=
  (sliceFrom_suffix text bound).length_le

theorem item_pred {α : Type} (text : List α) (n : Nat) :
    item text ((n : Int) - 1) = if n = 0 then text.getLast? else text[n - 1]? := by
  cases n with
  | zero =>
      rw [if_pos rfl, List.getLast?_eq_getElem?]
      cases text with
      | nil => rfl
      | cons head tail =>
          have inside : ¬ ((0 : Nat) : Int) - 1 + ((head :: tail).length : Nat) < 0 := by
            rw [List.length_cons]
            omega
          have place : (((0 : Nat) : Int) - 1 + ((head :: tail).length : Nat)).toNat =
              (head :: tail).length - 1 := by
            rw [List.length_cons]
            omega
          simp only [item, show ((0 : Nat) : Int) - 1 < 0 by decide, if_true, inside, if_false,
            place]
  | succ n =>
      have positive : ¬ ((n + 1 : Nat) : Int) - 1 < 0 := by omega
      have place : (((n + 1 : Nat) : Int) - 1).toNat = n + 1 - 1 := by omega
      simp only [item, positive, if_false, Nat.succ_ne_zero, place]

/-! ### Letters and integers -/

def lowerByte (letter : Byte) : Byte :=
  if 65 ≤ letter ∧ letter ≤ 90 then letter + 32 else letter

def lower (text : Bytes) : Bytes := text.map lowerByte

def isSpace (letter : Byte) : Bool :=
  letter = 32 || (9 ≤ letter && letter ≤ 13)

/-- `text.split()`: the stretches between blanks. -/
def words (text : Bytes) : List Bytes := (text.splitOnP isSpace).filter (· ≠ [])

def strip (text : Bytes) : Bytes := (text.dropWhile isSpace).rdropWhile isSpace

theorem strip_front (front between : Bytes) (first last : Byte) (start : isSpace first = false)
    (finish : isSpace last = false) :
    strip (front ++ (first :: between ++ [last])) =
      front.dropWhile isSpace ++ (first :: between ++ [last]) := by
  have kept : (first :: between ++ [last]).dropWhile isSpace = first :: between ++ [last] := by
    rw [List.cons_append, List.dropWhile_cons_of_neg (by simp [start])]
  have whole : (front ++ (first :: between ++ [last])).dropWhile isSpace =
      front.dropWhile isSpace ++ (first :: between) ++ [last] := by
    rw [List.dropWhile_append, kept]
    split
    · rename_i blank
      rw [List.isEmpty_iff.mp blank, List.nil_append]
    · rw [List.append_assoc]
  rw [strip, whole, List.rdropWhile_concat_neg _ _ _ (by simp [finish]), List.append_assoc]

/-- The lines of a file, without their line ends. -/
def fileLines (text : Bytes) : List Bytes :=
  let pieces := text.splitOn lineFeed
  if pieces.getLast? = some [] then pieces.dropLast else pieces

theorem fileLines_ended (lines : List Bytes) (plain : ∀ line ∈ lines, lineFeed ∉ line) :
    fileLines (lines.flatMap (· ++ [lineFeed])) = lines := by
  have pieces : (lines.flatMap (· ++ [lineFeed])).splitOn lineFeed = lines ++ [[]] := by
    induction lines with
    | nil => simp
    | cons line lines ih =>
        obtain ⟨here, later⟩ := List.forall_mem_cons.mp plain
        rw [List.flatMap_cons, List.append_assoc, List.singleton_append,
          List.splitOn_append_cons_self_of_not_mem here, ih later, List.cons_append]
  rw [fileLines, pieces, if_pos (by simp), List.dropLast_concat]

/-- `text.replace(old, new)` for single letters. -/
def replaceByte (old new : Byte) (text : Bytes) : Bytes :=
  text.map fun letter => if letter = old then new else letter

theorem mem_intercalate {separator : Bytes} {pieces : List Bytes} {letter : Byte}
    (member : letter ∈ separator.intercalate pieces) :
    letter ∈ separator ∨ ∃ piece ∈ pieces, letter ∈ piece := by
  simp only [List.intercalate] at member
  induction pieces with
  | nil => exact absurd member (by simp)
  | cons first pieces ih =>
      cases pieces with
      | nil => exact .inr ⟨first, by simp, by simpa using member⟩
      | cons second pieces =>
          simp only [List.intersperse_cons_cons, List.flatten_cons, List.mem_append] at member
          rcases member with here | between | later
          · exact .inr ⟨first, by simp, here⟩
          · exact .inl between
          · rcases ih later with inSeparator | ⟨piece, inPieces, inPiece⟩
            · exact .inl inSeparator
            · exact .inr ⟨piece, List.mem_cons_of_mem _ inPieces, inPiece⟩

private theorem intercalate_concat_append (separator : Byte) (init : List Bytes)
    (last tail : Bytes) :
    [separator].intercalate (init ++ [last]) ++ tail =
      [separator].intercalate (init ++ [last ++ tail]) := by
  simp only [List.intercalate]
  induction init with
  | nil => simp
  | cons first init ih =>
      cases init with
      | nil => simp
      | cons second init =>
          simp only [List.cons_append, List.intersperse_cons_cons, List.flatten_cons,
            List.append_assoc] at ih ⊢
          rw [ih]

theorem splitOn_intercalate_append {separator : Byte} {init : List Bytes} {last tail : Bytes}
    (plain : ∀ piece ∈ init, separator ∉ piece) (plainLast : separator ∉ last)
    (plainTail : separator ∉ tail) :
    ([separator].intercalate (init ++ [last]) ++ tail).splitOn separator =
      init ++ [last ++ tail] := by
  rw [intercalate_concat_append, List.splitOn_intercalate]
  · intro piece member
    rcases List.mem_append.mp member with inInit | inLast
    · exact plain piece inInit
    · rw [List.mem_singleton.mp inLast, List.mem_append]
      exact fun either => either.elim plainLast plainTail
  · simp

theorem mem_splitOn {separator : Byte} {text piece : Bytes}
    (member : piece ∈ text.splitOn separator) : separator ∉ piece ∧ piece ⊆ text := by
  induction text generalizing piece with
  | nil =>
      rw [List.splitOn_eq_splitOnP, List.splitOnP_nil, List.mem_singleton] at member
      subst member
      exact ⟨List.not_mem_nil, List.nil_subset _⟩
  | cons letter text ih =>
      rw [List.splitOn_cons_eq_if_modifyHead] at member
      split at member
      · rcases List.mem_cons.mp member with rfl | later
        · exact ⟨List.not_mem_nil, List.nil_subset _⟩
        · exact ⟨(ih later).1, List.subset_cons_of_subset _ (ih later).2⟩
      · rename_i other
        obtain ⟨first, pieces, shape⟩ :=
          List.exists_cons_of_ne_nil (List.splitOn_ne_nil separator text)
        rw [shape, List.modifyHead_cons] at member
        rcases List.mem_cons.mp member with rfl | later
        · have firstMember : first ∈ text.splitOn separator := by
            rw [shape]
            exact List.mem_cons_self
          obtain ⟨clean, inside⟩ := ih firstMember
          refine ⟨?_, List.cons_subset_cons _ inside⟩
          rw [List.mem_cons, not_or]
          exact ⟨fun same => other (by simp [same]), clean⟩
        · obtain ⟨clean, inside⟩ := ih (by rw [shape]; exact List.mem_cons_of_mem _ later)
          exact ⟨clean, List.subset_cons_of_subset _ inside⟩

def digitValue (letter : Byte) : Nat :=
  if 48 ≤ letter ∧ letter ≤ 57 then letter.toNat - 48
  else if 97 ≤ letter ∧ letter ≤ 122 then letter.toNat - 87
  else if 65 ≤ letter ∧ letter ≤ 90 then letter.toNat - 55
  else 36

def isDigit (base : Nat) (letter : Byte) : Bool := digitValue letter < base

/-- An optional `0x` in front of a base 16 numeral. -/
def dropHexPrefix (text : Bytes) : Bytes :=
  match text with
  | 48 :: marker :: digit :: rest =>
      if (marker = 120 ∨ marker = 88) ∧ isDigit 16 digit then digit :: rest else text
  | _ => text

/-- The integer that `int(text, base)` reads: blanks, a sign, digits, blanks. -/
def readInt (base : Nat) (text : Bytes) : Option Int :=
  let text := text.dropWhile isSpace
  let negative := text.head? = some 45
  let text := if negative ∨ text.head? = some 43 then text.tail else text
  let text := text.dropWhile isSpace
  let text := if base = 16 then dropHexPrefix text else text
  let digits := text.takeWhile (isDigit base)
  let rest := text.dropWhile (isDigit base)
  if digits ≠ [] ∧ rest.all isSpace then
    let magnitude := Nat.ofDigits base (digits.reverse.map digitValue)
    some (if negative then -(magnitude : Int) else magnitude)
  else none

theorem isDigit_spec {base : Nat} (small : base ≤ 16) {letter : Byte}
    (digit : isDigit base letter = true) :
    isSpace letter = false ∧ letter ≠ 45 ∧ letter ≠ 43 ∧ letter ≠ 120 ∧ letter ≠ 88 := by
  have bounded : digitValue letter < 16 := by
    have below := of_decide_eq_true digit
    omega
  have notBlank : isSpace letter = false := by
    cases blank : isSpace letter with
    | false => rfl
    | true =>
        simp only [isSpace, Bool.or_eq_true, Bool.and_eq_true, decide_eq_true_eq,
          UInt8.le_iff_toNat_le, UInt8.reduceToNat] at blank
        simp only [digitValue, UInt8.le_iff_toNat_le, UInt8.reduceToNat] at bounded
        rcases blank with rfl | blank
        · exact absurd bounded (by decide)
        · rw [if_neg (by omega), if_neg (by omega), if_neg (by omega)] at bounded
          omega
  refine ⟨notBlank, ?_, ?_, ?_, ?_⟩ <;>
  · intro same
    subst same
    exact absurd bounded (by decide)

private theorem dropHexPrefix_of_digits {text : Bytes}
    (digits : ∀ letter ∈ text, isDigit 16 letter = true) : dropHexPrefix text = text := by
  unfold dropHexPrefix
  split
  · rename_i marker digit rest
    have spec := isDigit_spec (Nat.le_refl 16) (digits marker (by simp))
    rw [if_neg (by simp [spec])]
  · rfl

theorem readInt_digits {base : Nat} (small : base ≤ 16) {text : Bytes} (nonempty : text ≠ [])
    (digits : ∀ letter ∈ text, isDigit base letter = true) :
    readInt base text = some ((Nat.ofDigits base (text.reverse.map digitValue) : Nat) : Int) := by
  obtain ⟨first, rest, rfl⟩ := List.exists_cons_of_ne_nil nonempty
  obtain ⟨notSpace, notMinus, notPlus, -⟩ := isDigit_spec small (digits first List.mem_cons_self)
  have noBlanks : (first :: rest).dropWhile isSpace = first :: rest := by
    rw [List.dropWhile_cons_of_neg (by simp [notSpace])]
  have noPrefix : (if base = 16 then dropHexPrefix (first :: rest) else first :: rest) =
      first :: rest := by
    split
    · rename_i hex
      exact dropHexPrefix_of_digits (hex ▸ digits)
    · rfl
  have all : (first :: rest).takeWhile (isDigit base) = first :: rest :=
    List.takeWhile_eq_self_iff.mpr digits
  have nothingLeft : (first :: rest).dropWhile (isDigit base) = [] :=
    List.dropWhile_eq_nil_iff.mpr digits
  simp [readInt, noBlanks, notMinus, notPlus, noPrefix, all, nothingLeft]

def decimal (value : Nat) : Bytes :=
  if value = 0 then [48]
  else ((Nat.digits 10 value).map fun digit => UInt8.ofNat (48 + digit)).reverse

theorem mem_decimal (value : Nat) (letter : Byte) (member : letter ∈ decimal value) :
    ∃ digit, digit < 10 ∧ letter = UInt8.ofNat (48 + digit) := by
  unfold decimal at member
  split at member
  · exact ⟨0, by omega, List.mem_singleton.mp member⟩
  · rw [List.mem_reverse, List.mem_map] at member
    rcases member with ⟨digit, digitAt, rfl⟩
    exact ⟨digit, Nat.digits_lt_base (by omega) digitAt, rfl⟩

theorem decimal_ne_nil (value : Nat) : decimal value ≠ [] := by
  unfold decimal
  split
  · exact List.cons_ne_nil _ _
  · rename_i nonzero
    simpa using Nat.digits_ne_nil_iff_ne_zero.mpr nonzero

theorem isDigit_of_mem_decimal {value : Nat} {letter : Byte} (member : letter ∈ decimal value) :
    isDigit 10 letter = true := by
  obtain ⟨digit, small, rfl⟩ := mem_decimal value letter member
  interval_cases digit <;> decide

theorem notMem_decimal {letter : Byte} (noDigit : isDigit 10 letter = false) (value : Nat) :
    letter ∉ decimal value := by
  intro member
  rw [isDigit_of_mem_decimal member] at noDigit
  cases noDigit

theorem decimal_value (value : Nat) :
    Nat.ofDigits 10 ((decimal value).reverse.map digitValue) = value := by
  unfold decimal
  split
  · rename_i zero
    rw [zero]
    rfl
  · rw [List.reverse_reverse, List.map_map]
    have same : (Nat.digits 10 value).map
        (digitValue ∘ fun digit => UInt8.ofNat (48 + digit)) = Nat.digits 10 value := by
      conv_rhs => rw [← List.map_id (Nat.digits 10 value)]
      apply List.map_congr_left
      intro digit digitAt
      have small := Nat.digits_lt_base (by omega) digitAt
      interval_cases digit <;> decide
    rw [same, Nat.ofDigits_digits]

theorem decimal_injective {value other : Nat} (same : decimal value = decimal other) :
    value = other := by
  rw [← decimal_value value, same, decimal_value]

def padded : Nat → Nat → Bytes
  | 0, _ => []
  | width + 1, value => padded width (value / 10) ++ [UInt8.ofNat (48 + value % 10)]

@[simp] theorem padded_length (width value : Nat) : (padded width value).length = width := by
  induction width generalizing value with
  | zero => rfl
  | succ width ih => rw [padded, List.length_append, ih, List.length_singleton]

private theorem digit_spec {digit : Nat} (small : digit < 10) :
    isDigit 10 (UInt8.ofNat (48 + digit)) = true ∧
      digitValue (UInt8.ofNat (48 + digit)) = digit := by
  interval_cases digit <;> decide

theorem isDigit_of_mem_padded {width value : Nat} {letter : Byte}
    (member : letter ∈ padded width value) : isDigit 10 letter = true := by
  induction width generalizing value with
  | zero => cases member
  | succ width ih =>
      rw [padded, List.mem_append, List.mem_singleton] at member
      rcases member with earlier | rfl
      · exact ih earlier
      · exact (digit_spec (Nat.mod_lt value (by omega))).1

theorem padded_value (width value : Nat) :
    Nat.ofDigits 10 ((padded width value).reverse.map digitValue) = value % 10 ^ width := by
  induction width generalizing value with
  | zero => rw [Nat.pow_zero, Nat.mod_one]; rfl
  | succ width ih =>
      rw [padded, List.reverse_append, List.reverse_singleton, List.singleton_append,
        List.map_cons, Nat.ofDigits_cons, ih, (digit_spec (Nat.mod_lt value (by omega))).2,
        Nat.pow_succ', Nat.mod_mul]

/-- `str(value)` of an integer. -/
def integer (value : Int) : Bytes :=
  if value < 0 then 45 :: decimal value.natAbs else decimal value.toNat

@[simp] theorem integer_natCast (value : Nat) : integer value = decimal value := by
  have positive : ¬ (value : Int) < 0 := by omega
  simp [integer, positive]

theorem notMem_integer {letter : Byte} (noSign : letter ≠ 45) (noDigit : isDigit 10 letter = false)
    (value : Int) : letter ∉ integer value := by
  unfold integer
  split
  · rw [List.mem_cons, not_or]
    exact ⟨noSign, notMem_decimal noDigit _⟩
  · exact notMem_decimal noDigit _

theorem integer_injective {value other : Int} (same : integer value = integer other) :
    value = other := by
  have noSign : ∀ number : Nat, 45 ∉ decimal number := notMem_decimal (by decide)
  unfold integer at same
  by_cases negative : value < 0
  · by_cases negative' : other < 0
    · rw [if_pos negative, if_pos negative'] at same
      have sameSize := decimal_injective (List.cons.inj same).2
      omega
    · rw [if_pos negative, if_neg negative'] at same
      exact absurd (same ▸ List.mem_cons_self) (noSign _)
  · by_cases negative' : other < 0
    · rw [if_neg negative, if_pos negative'] at same
      exact absurd (same ▸ List.mem_cons_self) (noSign _)
    · rw [if_neg negative, if_neg negative'] at same
      have sameSize := decimal_injective same
      omega

theorem readInt_decimal (value : Nat) : readInt 10 (decimal value) = some (value : Int) := by
  rw [readInt_digits (by omega) (decimal_ne_nil value) fun _ => isDigit_of_mem_decimal,
    decimal_value]

end Packetpig.Text
