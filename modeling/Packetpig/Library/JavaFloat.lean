/-
`Float.parseFloat` and `Double.parseDouble` on numbers in plain decimal notation,
and the narrowing conversion to `long`.

The decimal number is exact and then rounded. Exponents, hexadecimal digits, type
suffixes and the words for infinity and not-a-number are left out, as are the
bounds of the exponent.
-/

import Packetpig.Library.JavaText
import Packetpig.Library.Json
import Packetpig.Library.Rounding

namespace Packetpig.JavaText

open Text

def readDecimal (text : Bytes) : Option Rat :=
  let text := trim text
  let negative := text.head? = some 45
  let text := if negative ∨ text.head? = some 43 then text.tail else text
  let whole := text.takeWhile (isDigit 10)
  let rest := text.dropWhile (isDigit 10)
  let point := rest.head? = some 46
  let fraction := if point then rest.tail else []
  if whole ++ fraction ≠ [] ∧ fraction.all (isDigit 10) ∧ (point ∨ rest = []) then
    let digits := (whole ++ fraction).reverse.map digitValue
    let magnitude : Rat := (Nat.ofDigits 10 digits : Nat) / 10 ^ fraction.length
    some (if negative then -magnitude else magnitude)
  else none

def parseFloat (text : Bytes) : Option Rat := (readDecimal text).map (Rounding.round 24)

def parseDouble (text : Bytes) : Option Rat := (readDecimal text).map (Rounding.round 53)

/-- `longValue()`. -/
def longValue (value : Rat) : Int := (Json.float value).getLongValue

theorem longValue_eq_floor {value : Rat} (nonnegative : 0 ≤ value) (small : ⌊value⌋ < 2 ^ 63) :
    longValue value = ⌊value⌋ := by
  have cut : Json.truncate value = ⌊value⌋ := by
    unfold Json.truncate
    rw [Rat.floor_def', Int.tdiv_eq_ediv_of_nonneg (Rat.num_nonneg.mpr nonnegative)]
  have positive : 0 ≤ ⌊value⌋ := Int.floor_nonneg.mpr nonnegative
  simp only [longValue, Json.getLongValue, Json.toSigned, cut]
  omega

def pointed (fraction : Bytes) : Bytes := if fraction = [] then [] else 46 :: fraction

/-- No point where there is no fraction. -/
def numeral (whole : Nat) (fraction : Bytes) : Bytes := decimal whole ++ pointed fraction

def fractionPart (fraction : Bytes) : Rat :=
  (Nat.ofDigits 10 (fraction.reverse.map digitValue) : Nat) / 10 ^ fraction.length

theorem fractionPart_lt_one {fraction : Bytes}
    (digits : ∀ letter ∈ fraction, isDigit 10 letter = true) : fractionPart fraction < 1 := by
  have below : Nat.ofDigits 10 (fraction.reverse.map digitValue) < 10 ^ fraction.length := by
    have bound := Nat.ofDigits_lt_base_pow_length (b := 10)
      (l := fraction.reverse.map digitValue) (by omega) (by
        intro digit member
        obtain ⟨letter, inside, rfl⟩ := List.mem_map.mp member
        exact of_decide_eq_true (digits letter (List.mem_reverse.mp inside)))
    simpa using bound
  unfold fractionPart
  rw [div_lt_one (by positivity)]
  exact_mod_cast below

private theorem not_le_space {letter : Byte} (digit : isDigit 10 letter = true) :
    ¬ letter ≤ space := by
  intro low
  have value : digitValue letter < 10 := of_decide_eq_true digit
  have bound : letter.toNat ≤ 32 := UInt8.le_iff_toNat_le.mp low
  simp only [digitValue, UInt8.le_iff_toNat_le, UInt8.reduceToNat] at value
  rw [if_neg (by omega), if_neg (by omega), if_neg (by omega)] at value
  omega

theorem trim_eq_self {text : Bytes} (nonempty : text ≠ [])
    (first : ¬ text.head nonempty ≤ space) (last : ¬ text.getLast nonempty ≤ space) :
    trim text = text := by
  have front : (text.dropWhile fun letter => letter ≤ space) = text := by
    obtain ⟨letter, rest, rfl⟩ := List.exists_cons_of_ne_nil nonempty
    rw [List.dropWhile_cons_of_neg (by simpa using first)]
  unfold trim
  rw [front, List.rdropWhile_eq_self_iff]
  intro _
  simpa using last

private theorem digitsAtEnds (whole : Nat) {fraction : Bytes}
    (digits : ∀ letter ∈ fraction, isDigit 10 letter = true)
    (nonempty : numeral whole fraction ≠ []) :
    isDigit 10 ((numeral whole fraction).head nonempty) = true ∧
      isDigit 10 ((numeral whole fraction).getLast nonempty) = true := by
  have wholeDigit : ∀ letter ∈ decimal whole, isDigit 10 letter = true :=
    fun _ => isDigit_of_mem_decimal
  by_cases plain : fraction = []
  · simp only [numeral, pointed, plain, if_true, List.append_nil]
    exact ⟨wholeDigit _ (List.head_mem _), wholeDigit _ (List.getLast_mem _)⟩
  · simp only [numeral, pointed, plain, if_false]
    constructor
    · rw [List.head_append_of_ne_nil (decimal_ne_nil whole)]
      exact wholeDigit _ (List.head_mem _)
    · rw [List.getLast_append_of_ne_nil _ (List.cons_ne_nil _ _), List.getLast_cons plain]
      exact digits _ (List.getLast_mem _)

private theorem behindPoint (fraction : Bytes) :
    (if (pointed fraction).head? = some 46 then (pointed fraction).tail else []) = fraction := by
  by_cases plain : fraction = []
  · simp [pointed, plain]
  · simp [pointed, plain]

private theorem pointOrEnd (fraction : Bytes) :
    (pointed fraction).head? = some 46 ∨ pointed fraction = [] := by
  by_cases plain : fraction = []
  · exact .inr (by simp [pointed, plain])
  · exact .inl (by simp [pointed, plain])

private theorem takeDigits (whole : Nat) (fraction : Bytes) :
    (numeral whole fraction).takeWhile (isDigit 10) = decimal whole := by
  unfold numeral
  rw [List.takeWhile_append_of_pos fun _ => isDigit_of_mem_decimal]
  by_cases plain : fraction = []
  · simp [pointed, plain]
  · simp [pointed, plain, show isDigit 10 46 = false from rfl]

private theorem dropDigits (whole : Nat) (fraction : Bytes) :
    (numeral whole fraction).dropWhile (isDigit 10) = pointed fraction := by
  unfold numeral
  rw [List.dropWhile_append_of_pos fun _ => isDigit_of_mem_decimal]
  by_cases plain : fraction = []
  · simp [pointed, plain]
  · simp [pointed, plain, show isDigit 10 46 = false from rfl]

private theorem digits_value (whole : Nat) (fraction : Bytes) :
    ((Nat.ofDigits 10 ((decimal whole ++ fraction).reverse.map digitValue) : Nat) : Rat) /
      10 ^ fraction.length = whole + fractionPart fraction := by
  have value : Nat.ofDigits 10 ((decimal whole ++ fraction).reverse.map digitValue) =
      Nat.ofDigits 10 (fraction.reverse.map digitValue) + 10 ^ fraction.length * whole := by
    rw [List.reverse_append, List.map_append, Nat.ofDigits_append, decimal_value, List.length_map,
      List.length_reverse]
  have power : (10 : Rat) ^ fraction.length ≠ 0 := by positivity
  rw [value, fractionPart]
  push_cast
  field_simp
  ring

theorem readDecimal_numeral (whole : Nat) {fraction : Bytes}
    (digits : ∀ letter ∈ fraction, isDigit 10 letter = true) :
    readDecimal (numeral whole fraction) = some (whole + fractionPart fraction) := by
  have nonempty : numeral whole fraction ≠ [] :=
    List.append_ne_nil_of_left_ne_nil (decimal_ne_nil whole) _
  obtain ⟨first, last⟩ := digitsAtEnds whole digits nonempty
  have trimmed := trim_eq_self nonempty (not_le_space first) (not_le_space last)
  obtain ⟨-, notMinus, notPlus, -⟩ := isDigit_spec (by omega) first
  have head := List.head?_eq_some_head nonempty
  have all : fraction.all (isDigit 10) = true := List.all_eq_true.mpr digits
  have present : decimal whole ++ fraction ≠ [] :=
    List.append_ne_nil_of_left_ne_nil (decimal_ne_nil whole) _
  simp only [readDecimal, trimmed, head, Option.some.injEq, notMinus, notPlus, or_self, if_false,
    takeDigits, dropDigits, behindPoint]
  rw [if_pos ⟨present, all, pointOrEnd fraction⟩, digits_value]

end Packetpig.JavaText
