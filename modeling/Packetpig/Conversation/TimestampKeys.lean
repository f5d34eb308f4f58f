/-
The keys that the readers of tcp.py's rows give to a connection.

ConversationFileRecordReader reads the timestamp as a `Float`, which has 24
binary digits, HTTPConversationRecordReader as a `Double`, which has 53, and both
cut off what is behind the point. The seconds of the present take 31 digits.
-/

import Packetpig.Conversation.ConversationFileRecordReader
import Packetpig.Library.JavaFloat
import Packetpig.Tcp.HTTPConversationRecordReader

namespace Packetpig

open Text JavaText

structure Timestamp where
  whole : Nat
  fraction : Bytes
  small : whole < 2 ^ 31
  digits : ∀ letter ∈ fraction, isDigit 10 letter = true
  short : fraction.length ≤ 2

namespace Timestamp

def text (ts : Timestamp) : Bytes := numeral ts.whole ts.fraction

def hundredths (ts : Timestamp) : Nat :=
  Nat.ofDigits 10 (ts.fraction.reverse.map digitValue) * 10 ^ (2 - ts.fraction.length)

theorem fractionPart_eq (ts : Timestamp) :
    fractionPart ts.fraction = (ts.hundredths : Rat) / 100 := by
  have lengths : (100 : Rat) = 10 ^ ts.fraction.length * 10 ^ (2 - ts.fraction.length) := by
    rw [← pow_add, Nat.add_sub_cancel' ts.short]
    norm_num
  have power : (10 : Rat) ^ ts.fraction.length ≠ 0 := by positivity
  have power' : (10 : Rat) ^ (2 - ts.fraction.length) ≠ 0 := by positivity
  rw [fractionPart, hundredths, lengths]
  push_cast
  field_simp

theorem hundredths_lt (ts : Timestamp) : ts.hundredths < 100 := by
  have part := fractionPart_lt_one ts.digits
  rw [fractionPart_eq, div_lt_one (by norm_num)] at part
  exact_mod_cast part

theorem readDecimal_text (ts : Timestamp) :
    readDecimal ts.text = some (ts.whole + (ts.hundredths : Rat) / 100) := by
  rw [text, readDecimal_numeral ts.whole ts.digits, fractionPart_eq]

/-- Where a `Float` keeps the integer part: the distance to the next integer is
more than half of the last digit, or the last digit is one and the fraction is
rounded down, or the integer part is a multiple of the last digit. -/
def FloatKeeps (whole hundredths : Nat) : Prop :=
  if whole < 2 ^ 23 then 50 < 2 ^ (23 - Nat.log 2 whole) * (100 - hundredths)
  else if whole < 2 ^ 24 then hundredths < 50 ∨ hundredths = 50 ∧ 2 ∣ whole
  else 2 ^ (Nat.log 2 whole - 23) ∣ whole

instance (whole hundredths : Nat) : Decidable (FloatKeeps whole hundredths) :=
  inferInstanceAs (Decidable (if whole < 2 ^ 23 then _ else if whole < 2 ^ 24 then _ else _))

section Parts

variable {whole hundredths : Nat}

private theorem part_bounds (below : hundredths < 100) :
    (0 : Rat) ≤ hundredths / 100 ∧ (hundredths : Rat) / 100 < 1 := by
  have bound : (hundredths : Rat) < 100 := by exact_mod_cast below
  constructor
  · positivity
  · rw [div_lt_one (by norm_num)]
    exact bound

private theorem half_lt_iff (below : hundredths < 100) (places : Nat) :
    (1 : Rat) / 2 < 2 ^ places * (1 - hundredths / 100) ↔
      50 < 2 ^ places * (100 - hundredths) := by
  have distance : ((100 - hundredths : Nat) : Rat) = 100 - hundredths :=
    Nat.cast_sub (Nat.le_of_lt below)
  have scaled : (2 : Rat) ^ places * (1 - hundredths / 100) =
      ((2 ^ places * (100 - hundredths) : Nat) : Rat) / 100 := by
    rw [Nat.cast_mul, distance]
    push_cast
    ring
  rw [scaled, div_lt_div_iff₀ (by norm_num) (by norm_num)]
  constructor
  · intro far
    have far' : (50 : Rat) < ((2 ^ places * (100 - hundredths) : Nat) : Rat) := by linarith
    exact_mod_cast far'
  · intro far
    have far' : (50 : Rat) < ((2 ^ places * (100 - hundredths) : Nat) : Rat) := by
      exact_mod_cast far
    linarith

theorem floatKeeps_present (low : 2 ^ 30 ≤ whole) (high : whole < 2 ^ 31) :
    FloatKeeps whole hundredths ↔ 2 ^ 7 ∣ whole := by
  have log : Nat.log 2 whole = 30 := Nat.log_eq_of_pow_le_of_lt_pow low high
  unfold FloatKeeps
  rw [if_neg (by omega), if_neg (by omega), log]

private theorem floor_zero {precision : Nat} (below : hundredths < 100) (fine : 8 ≤ precision) :
    ⌊Rounding.round precision ((0 : Nat) + (hundredths : Rat) / 100)⌋ = (0 : Nat) := by
  obtain ⟨low, -⟩ := part_bounds below
  have bound : (hundredths : Rat) ≤ 99 := by exact_mod_cast Nat.le_of_lt_succ below
  have digits : (2 : Rat) ^ 9 ≤ 2 ^ (precision + 1) :=
    pow_le_pow_right₀ (by norm_num) (by omega)
  have small : 1 / (2 : Rat) ^ (precision + 1) ≤ 1 / 2 ^ 9 :=
    one_div_le_one_div_of_le (by norm_num) digits
  rw [Nat.cast_zero, zero_add]
  apply Rounding.floor_round_zero low
  linarith

theorem floor_float_iff (below : hundredths < 100) :
    ⌊Rounding.round 24 (whole + (hundredths : Rat) / 100)⌋ = whole ↔
      FloatKeeps whole hundredths := by
  obtain ⟨low, high⟩ := part_bounds below
  unfold FloatKeeps
  rcases Nat.eq_zero_or_pos whole with zero | positive
  · subst zero
    rw [floor_zero below (by omega), if_pos (by omega), Nat.log_zero_right]
    have distance : 1 ≤ 100 - hundredths := by omega
    constructor
    · intro _
      omega
    · intro _
      rfl
  · have log := Nat.log_lt_iff_lt_pow (b := 2) (x := 23) (by omega) positive.ne'
    have log' := Nat.log_lt_iff_lt_pow (b := 2) (x := 24) (by omega) positive.ne'
    by_cases fraction : whole < 2 ^ 23
    · have places := log.mpr fraction
      rw [if_pos fraction, ← half_lt_iff below]
      exact Rounding.floor_round_fraction positive.ne' low high (by omega) (by omega)
    · have atLeast : 23 ≤ Nat.log 2 whole := by
        rw [← Nat.not_lt, log]
        exact fraction
      rw [if_neg fraction]
      by_cases integer : whole < 2 ^ 24
      · have atMost := log'.mpr integer
        rw [if_pos integer, Rounding.floor_round_integer positive.ne' low high (by omega),
          div_lt_div_iff₀ (by norm_num) (by norm_num), div_eq_div_iff (by norm_num) (by norm_num)]
        norm_cast
        omega
      · have many : 24 ≤ Nat.log 2 whole := by
          rw [← Nat.not_lt, log']
          exact integer
        rw [if_neg integer]
        exact Rounding.floor_round_multiple positive.ne' low high (by omega) (by omega)

theorem floor_double (small : whole < 2 ^ 31) (below : hundredths < 100) :
    ⌊Rounding.round 53 (whole + (hundredths : Rat) / 100)⌋ = whole := by
  obtain ⟨low, high⟩ := part_bounds below
  rcases Nat.eq_zero_or_pos whole with zero | positive
  · subst zero
    exact floor_zero below (by omega)
  · have log : Nat.log 2 whole < 31 :=
      (Nat.log_lt_iff_lt_pow (by omega) positive.ne').mpr small
    have places : 53 = Nat.log 2 whole + 1 + (52 - Nat.log 2 whole) := by omega
    rw [Rounding.floor_round_fraction positive.ne' low high (by omega) places, half_lt_iff below]
    have power : 2 ^ 6 ≤ 2 ^ (52 - Nat.log 2 whole) := Nat.pow_le_pow_right (by omega) (by omega)
    have distance : 1 ≤ 100 - hundredths := by omega
    calc 50 < 2 ^ 6 * 1 := by norm_num
      _ ≤ 2 ^ (52 - Nat.log 2 whole) * (100 - hundredths) := Nat.mul_le_mul power distance

end Parts

def floatKey (text : Bytes) : Option Int := (parseFloat text).map longValue

def doubleKey (text : Bytes) : Option Int := (parseDouble text).map longValue

private theorem key_eq_floor (ts : Timestamp) {precision : Nat} (digits : precision ≠ 0) :
    ((readDecimal ts.text).map (Rounding.round precision)).map longValue =
      some ⌊Rounding.round precision (ts.whole + (ts.hundredths : Rat) / 100)⌋ := by
  obtain ⟨low, high⟩ := part_bounds ts.hundredths_lt
  have whole : (ts.whole : Rat) < 2 ^ 31 := by exact_mod_cast ts.small
  have nonnegative : (0 : Rat) ≤ ts.whole + (ts.hundredths : Rat) / 100 := by positivity
  have above := Rounding.round_nonneg precision nonnegative
  have bound := Rounding.round_le_double digits nonnegative
  have small : ⌊Rounding.round precision (ts.whole + (ts.hundredths : Rat) / 100)⌋ < 2 ^ 63 := by
    rw [Int.floor_lt]
    push_cast
    linarith
  rw [readDecimal_text, Option.map_some, Option.map_some, longValue_eq_floor above small]

theorem floatKey_iff (ts : Timestamp) :
    floatKey ts.text = some (ts.whole : Int) ↔ FloatKeeps ts.whole ts.hundredths := by
  unfold floatKey parseFloat
  rw [key_eq_floor ts (by omega), Option.some.injEq]
  exact floor_float_iff ts.hundredths_lt

theorem doubleKey_eq (ts : Timestamp) : doubleKey ts.text = some (ts.whole : Int) := by
  unfold doubleKey parseDouble
  rw [key_eq_floor ts (by omega), Option.some.injEq]
  exact floor_double ts.small ts.hundredths_lt

def Starts (ts : Timestamp) (line : Bytes) : Prop :=
  lineFeed ∉ line ∧ carriageReturn ∉ line ∧ ∃ more, line = ts.text ++ tab :: more

def Shown (field : Option Bytes) (parts : List Bytes) : Prop :=
  if HTTPConversationRecordReader.allFields field then 6 ≤ parts.length
  else 5 ≤ parts.length ∧
    HTTPConversationRecordReader.scan (field.getD []) (parts.drop 5) ≠ none

/-- Every row that has the columns a reader needs gives a tuple, and its key is
the integer part of the timestamp. -/
structure KeysAgree (ts : Timestamp) : Prop where
  file : ∀ (settings : FileReaderSettings) (moved : List (Bytes × Bytes)) (line rest : Bytes),
    settings.parseFloat = floatKey →
    (∀ source target, settings.moveFromLocalFile source target = .ok ()) →
    ts.Starts line →
    ConversationFileRecordReader.columnsIndexed settings ≤ (split tab line).length →
    ∃ columns after, ConversationFileRecordReader.nextKeyValue settings
      ⟨line ++ lineFeed :: rest, moved⟩ = .item ⟨ts.whole, columns⟩ ⟨rest, after⟩
  http : ∀ (field : Option Bytes) (line rest : Bytes), ts.Starts line →
    Shown field (split tab line) →
    ∃ tuple, HTTPConversationRecordReader.nextKeyValue doubleKey field
      (line ++ lineFeed :: rest) = .item ⟨ts.whole, tuple⟩ rest

private theorem mem_text {ts : Timestamp} {letter : Byte} (member : letter ∈ ts.text) :
    isDigit 10 letter = true ∨ letter = 46 := by
  rcases List.mem_append.mp member with inWhole | behind
  · exact .inl (isDigit_of_mem_decimal inWhole)
  · unfold pointed at behind
    split at behind
    · cases behind
    · rcases List.mem_cons.mp behind with point | inFraction
      · exact .inr point
      · exact .inl (ts.digits letter inFraction)

theorem Starts.split_eq {ts : Timestamp} {line : Bytes} (starts : ts.Starts line) :
    ∃ pieces, split tab line = ts.text :: pieces := by
  rcases starts with ⟨-, -, more, rfl⟩
  apply split_front
  · intro member
    rcases mem_text member with digit | point
    · cases digit
    · cases point
  · exact List.append_ne_nil_of_left_ne_nil (decimal_ne_nil _) _

theorem Starts.readLine_eq {ts : Timestamp} {line : Bytes} (starts : ts.Starts line)
    (rest : Bytes) : readLine (line ++ lineFeed :: rest) = some (line, rest) :=
  readLine_append line rest starts.1 starts.2.1

theorem file_of_key {ts : Timestamp} {key : Int} {settings : FileReaderSettings}
    (parsed : settings.parseFloat ts.text = some key)
    (moves : ∀ source target, settings.moveFromLocalFile source target = .ok ())
    {line : Bytes} (starts : ts.Starts line)
    (enough : ConversationFileRecordReader.columnsIndexed settings ≤ (split tab line).length)
    (rest : Bytes) (moved : List (Bytes × Bytes)) :
    ∃ columns after, ConversationFileRecordReader.nextKeyValue settings
      ⟨line ++ lineFeed :: rest, moved⟩ = .item ⟨key, columns⟩ ⟨rest, after⟩ := by
  obtain ⟨pieces, shape⟩ := starts.split_eq
  rw [shape] at enough
  obtain ⟨⟨_, columns⟩, move, read, rfl⟩ :=
    (ConversationFileRecordReader.readBits_isOk_iff settings parsed pieces).mpr enough
  unfold ConversationFileRecordReader.nextKeyValue
  rw [starts.readLine_eq rest]
  simp only [shape, read]
  rcases move with _ | ⟨source, target⟩
  · exact ⟨columns, moved, rfl⟩
  · simp only [moves]
    exact ⟨columns, _, rfl⟩

theorem http_of_key {ts : Timestamp} {parseDouble : Bytes → Option Int} {key : Int}
    (parsed : parseDouble ts.text = some key) {field : Option Bytes} {line : Bytes}
    (starts : ts.Starts line) (shown : Shown field (split tab line)) (rest : Bytes) :
    ∃ tuple, HTTPConversationRecordReader.nextKeyValue parseDouble field
      (line ++ lineFeed :: rest) = .item ⟨key, tuple⟩ rest := by
  obtain ⟨pieces, shape⟩ := starts.split_eq
  unfold HTTPConversationRecordReader.nextKeyValue HTTPConversationRecordReader.readLoop
  rw [starts.readLine_eq rest]
  simp only [shape, HTTPConversationRecordReader.readParts, parsed]
  unfold Shown at shown
  rw [shape, List.length_cons, List.drop_succ_cons] at shown
  have enough : 4 ≤ pieces.length := by
    split at shown
    · omega
    · omega
  rcases pieces with _ | ⟨src, _ | ⟨sport, _ | ⟨dst, _ | ⟨dport, columns⟩⟩⟩⟩
  iterate 4 exact absurd enough (by simp)
  by_cases all : HTTPConversationRecordReader.allFields field = true
  · simp only [all, if_true] at shown ⊢
    cases columns with
    | nil => exact absurd shown (by simp)
    | cons status columns => exact ⟨_, rfl⟩
  · simp only [all] at shown ⊢
    obtain ⟨value, found⟩ := Option.ne_none_iff_exists'.mp shown.2
    rw [List.drop_succ_cons, List.drop_succ_cons, List.drop_succ_cons, List.drop_succ_cons,
      List.drop_zero] at found
    rw [found]
    exact ⟨_, rfl⟩

def sampleColumns (ts : Timestamp) : List Bytes := ts.text :: List.replicate 11 (ascii "x")

def sampleLine (ts : Timestamp) : Bytes := [tab].intercalate ts.sampleColumns

def sampleSettings : FileReaderSettings :=
  { pathToTcp := ascii "tcp.py"
    fileDumpPath := none
    filter := none
    parseFloat := floatKey
    moveFromLocalFile := fun _ _ => .ok () }

private theorem mem_sampleColumns {ts : Timestamp} {column : Bytes}
    (member : column ∈ ts.sampleColumns) : column = ts.text ∨ column = ascii "x" := by
  rcases List.mem_cons.mp member with first | later
  · exact .inl first
  · exact .inr (List.eq_of_mem_replicate later)

private theorem not_mem_column {ts : Timestamp} {letter : Byte}
    (noDigit : isDigit 10 letter = false) (noPoint : letter ≠ 46) (other : letter ∉ ascii "x")
    {column : Bytes} (member : column ∈ ts.sampleColumns) : letter ∉ column := by
  intro inside
  rcases mem_sampleColumns member with rfl | rfl
  · rcases mem_text inside with digit | point
    · rw [noDigit] at digit
      cases digit
    · exact noPoint point
  · exact other inside

private theorem not_mem_sampleLine {ts : Timestamp} {letter : Byte}
    (noDigit : isDigit 10 letter = false) (noPoint : letter ≠ 46) (other : letter ∉ ascii "x")
    (noTab : letter ≠ tab) : letter ∉ ts.sampleLine := by
  intro member
  rcases mem_intercalate member with isTab | ⟨column, inColumns, inColumn⟩
  · exact noTab (List.mem_singleton.mp isTab)
  · exact not_mem_column noDigit noPoint other inColumns inColumn

theorem starts_sampleLine (ts : Timestamp) : ts.Starts ts.sampleLine :=
  ⟨not_mem_sampleLine rfl (by decide) (by decide) (by decide),
    not_mem_sampleLine rfl (by decide) (by decide) (by decide),
    [tab].intercalate (List.replicate 11 (ascii "x")), rfl⟩

theorem split_sampleLine (ts : Timestamp) : split tab ts.sampleLine = ts.sampleColumns := by
  have shape : ts.sampleColumns =
      (ts.text :: List.replicate 10 (ascii "x")) ++ [ascii "x"] := rfl
  unfold sampleLine
  rw [split_intercalate_of_plain (by simp [sampleColumns])
    fun _ => not_mem_column rfl (by decide) (by decide), shape]
  exact dropTrailingEmpty_concat _ (by decide)

theorem file_key_eq {ts : Timestamp} {key : Int} (parsed : floatKey ts.text = some key)
    (agree : ts.KeysAgree) : key = ts.whole := by
  have enough : ConversationFileRecordReader.columnsIndexed sampleSettings ≤
      (split tab ts.sampleLine).length := by
    rw [split_sampleLine]
    exact le_of_eq rfl
  obtain ⟨_, _, wanted⟩ := agree.file sampleSettings [] ts.sampleLine [] rfl
    (fun _ _ => rfl) ts.starts_sampleLine enough
  have read : sampleSettings.parseFloat ts.text = some key := parsed
  obtain ⟨_, _, returned⟩ := file_of_key read (fun _ _ => rfl) ts.starts_sampleLine enough [] []
  rw [returned] at wanted
  injection wanted with keyed _
  injection keyed

/-- The `Double` is always right; the `Float` is where its digits reach. -/
theorem keysAgree_iff (ts : Timestamp) :
    ts.KeysAgree ↔ FloatKeeps ts.whole ts.hundredths := by
  rw [← floatKey_iff]
  constructor
  · intro agree
    obtain ⟨key, parsed⟩ : ∃ key, floatKey ts.text = some key :=
      ⟨_, key_eq_floor ts (by omega)⟩
    rw [parsed, file_key_eq parsed agree]
  · intro parsed
    constructor
    · intro settings moved line rest float moves starts enough
      exact file_of_key (by rw [float, parsed]) moves starts enough rest moved
    · intro field line rest starts shown
      exact http_of_key (doubleKey_eq ts) starts shown rest

def november : Timestamp :=
  { whole := 1322643601
    fraction := ascii "5"
    small := by omega
    digits := List.all_eq_true.mp (by decide)
    short := by decide }

private theorem november_float : floatKey november.text = some 1322643584 := by
  have half : november.hundredths = 50 := by decide
  have text : readDecimal november.text = some ((1322643601 : Nat) + (1 : Rat) / 2) := by
    rw [readDecimal_text, half]
    norm_num [november]
  have log : Nat.log 2 1322643601 = 30 :=
    Nat.log_eq_of_pow_le_of_lt_pow (by norm_num) (by norm_num)
  have unit : Rounding.spacing 24 ((1322643601 : Nat) + (1 : Rat) / 2) = 2 ^ 7 := by
    rw [Rounding.spacing_whole (by norm_num) (by norm_num) (by norm_num), log]
    norm_num
  have rounded : Rounding.round 24 ((1322643601 : Nat) + (1 : Rat) / 2) = 1322643584 := by
    rw [Rounding.round, unit]
    norm_num [Rounding.nearestEven]
  rw [floatKey, parseFloat, text, Option.map_some, Option.map_some, rounded,
    longValue_eq_floor (by norm_num) (by norm_num)]
  norm_num

theorem november_rounded :
    floatKey november.text = some 1322643584 ∧ doubleKey november.text = some 1322643601 ∧
      ¬ ∀ ts : Timestamp, ts.KeysAgree := by
  refine ⟨november_float, doubleKey_eq november, fun agree => ?_⟩
  have same := file_key_eq november_float (agree november)
  exact absurd same (by decide)

end Timestamp

end Packetpig
