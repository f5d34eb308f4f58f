/-
The reader and the writer of d3.csv.js for comma-separated values.

The position of the regular expression is the text behind it, so a position
beyond the end is the empty text.
-/

import Packetpig.Library.Text

namespace Packetpig.Csv

open Text

def quote : Byte := 34

/-- The text behind `re.lastIndex`, and the variable `eol`. -/
structure Scanner where
  text : Bytes
  eol : Bool

inductive Token where
  | value (text : Bytes)
  | EOL
  | EOF
deriving DecidableEq

def quoted : Bytes → Bytes × Bytes
  | 34 :: 34 :: rest =>
      let inside := quoted rest
      (quote :: quote :: inside.1, inside.2)
  | 34 :: rest => ([], rest)
  | letter :: rest =>
      let inside := quoted rest
      (letter :: inside.1, inside.2)
  | [] => ([], [])

/-- `replace(/""/g, "\"")`. -/
def unescape : Bytes → Bytes
  | 34 :: 34 :: rest => quote :: unescape rest
  | letter :: rest => letter :: unescape rest
  | [] => []

/-- One letter behind a quoted text is passed over, and it may end the line. -/
def afterQuote : Bytes → Scanner
  | [] => { text := [], eol := false }
  | letter :: rest =>
      if letter = carriageReturn then
        { text := if rest.head? = some lineFeed then rest.tail else rest, eol := true }
      else { text := rest, eol := letter = lineFeed }

/-- `/[,\r\n]/`. -/
def separates (letter : Byte) : Bool :=
  letter = comma || letter = carriageReturn || letter = lineFeed

/-- What a match of `/\r\n|[,\r\n]/` at the start of a text leaves. -/
def afterSeparator : Bytes → Scanner
  | [] => { text := [], eol := false }
  | letter :: rest =>
      { text :=
          if letter = carriageReturn ∧ rest.head? = some lineFeed then rest.tail else rest
        eol := letter ≠ comma }

def token (scanner : Scanner) : Token × Scanner :=
  match scanner.text with
  | [] => (.EOF, scanner)
  | letter :: rest =>
      if scanner.eol then (.EOL, { scanner with eol := false })
      else if letter = quote then
        (.value (unescape (quoted rest).1), afterQuote (quoted rest).2)
      else
        let plain := scanner.text.takeWhile fun letter => !separates letter
        (.value plain, afterSeparator (scanner.text.drop plain.length))

theorem quoted_shorter (text : Bytes) : (quoted text).2.length ≤ text.length := by
  fun_induction quoted text with
  | case1 rest inside ih =>
      change inside.2.length ≤ rest.length at ih
      simp only [List.length_cons]
      omega
  | case2 => simp only [List.length_cons]; omega
  | case3 letter rest _ _ inside ih =>
      change inside.2.length ≤ rest.length at ih
      simp only [List.length_cons]
      omega
  | case4 => exact Nat.le_refl _

theorem afterQuote_shorter (text : Bytes) : (afterQuote text).text.length ≤ text.length := by
  cases text with
  | nil => exact Nat.le_refl _
  | cons letter rest =>
      have tail := rest.length_tail
      unfold afterQuote
      simp only [List.length_cons]
      split
      · dsimp only
        split <;> omega
      · dsimp only
        omega

theorem afterSeparator_shorter (letter : Byte) (rest : Bytes) :
    (afterSeparator (letter :: rest)).text.length ≤ rest.length := by
  have tail := rest.length_tail
  unfold afterSeparator
  dsimp only
  split <;> omega

theorem token_shorter {scanner after : Scanner} {value : Bytes}
    (read : token scanner = (.value value, after)) : after.text.length < scanner.text.length := by
  rcases scanner with ⟨text, eol⟩
  cases text with
  | nil => cases read
  | cons letter rest =>
      cases eol with
      | true => cases read
      | false =>
          by_cases isQuote : letter = quote
          · have quotedRead : token ⟨letter :: rest, false⟩ =
                (.value (unescape (quoted rest).1), afterQuote (quoted rest).2) := if_pos isQuote
            rw [quotedRead] at read
            cases read
            have within := (afterQuote_shorter (quoted rest).2).trans (quoted_shorter rest)
            exact Nat.lt_succ_of_le within
          · have plainRead : token ⟨letter :: rest, false⟩ =
                (let plain := (letter :: rest).takeWhile fun letter => !separates letter
                (.value plain, afterSeparator ((letter :: rest).drop plain.length))) :=
              if_neg isQuote
            rw [plainRead] at read
            cases read
            cases behind : (letter :: rest).drop
                ((letter :: rest).takeWhile fun letter => !separates letter).length with
            | nil => exact Nat.zero_lt_succ _
            | cons separator later =>
                have lengths := congrArg List.length behind
                rw [List.length_drop, List.length_cons (a := separator)] at lengths
                have within := afterSeparator_shorter separator later
                change (afterSeparator (separator :: later)).text.length < (letter :: rest).length
                omega

theorem token_EOL {scanner after : Scanner} (read : token scanner = (.EOL, after)) :
    scanner.eol = true ∧ after = { scanner with eol := false } := by
  rcases scanner with ⟨text, eol⟩
  cases text with
  | nil => cases read
  | cons letter rest =>
      cases eol with
      | true =>
          cases read
          exact ⟨rfl, rfl⟩
      | false =>
          unfold token at read
          dsimp only at read
          split at read
          · contradiction
          · split at read
            · cases read
            · cases read

theorem token_EOF {scanner after : Scanner} (read : token scanner = (.EOF, after)) :
    scanner.text = [] ∧ after = scanner := by
  rcases scanner with ⟨text, eol⟩
  cases text with
  | nil =>
      cases read
      exact ⟨rfl, rfl⟩
  | cons letter rest =>
      unfold token at read
      dsimp only at read
      split at read
      · cases read
      · split at read
        · cases read
        · cases read

def Scanner.size (scanner : Scanner) : Nat := 2 * scanner.text.length + scanner.eol.toNat

def readRow (scanner : Scanner) (a : List Bytes) : List Bytes × Scanner :=
  match read : token scanner with
  | (.value t, after) =>
      have _shorter := token_shorter read
      readRow after (a ++ [t])
  | (_, after) => (a, after)
termination_by scanner.text.length

theorem readRow_size (scanner : Scanner) (a : List Bytes) :
    (readRow scanner a).2.size ≤ scanner.size ∧
      ((token scanner).1 ≠ .EOF → (readRow scanner a).2.size < scanner.size) := by
  fun_induction readRow scanner a with
  | case1 scanner a t after read shorter ih =>
      have below : after.size < scanner.size := by
        have small := after.eol.toNat_le
        simp only [Scanner.size]
        omega
      exact ⟨(ih.1.trans_lt below).le, fun _ => ih.1.trans_lt below⟩
  | case2 scanner a other after noValue read =>
      cases other with
      | value t => exact absurd rfl (noValue t)
      | EOL =>
          obtain ⟨pending, same⟩ := token_EOL read
          have below : after.size < scanner.size := by
            rw [same]
            simp only [Scanner.size, pending, Bool.toNat_true, Bool.toNat_false]
            omega
          exact ⟨below.le, fun _ => below⟩
      | EOF =>
          obtain ⟨-, same⟩ := token_EOF read
          rw [same, read]
          exact ⟨Nat.le_refl _, fun notEOF => absurd rfl notEOF⟩

/-- `d3.csv.parseRows` without a callback. -/
def readRows (scanner : Scanner) (rows : List (List Bytes)) : List (List Bytes) :=
  if ended : (token scanner).1 = .EOF then rows
  else
    have _smaller := (readRow_size scanner []).2 ended
    readRows (readRow scanner []).2 (rows ++ [(readRow scanner []).1])
termination_by scanner.size

def parseRows (text : Bytes) : List (List Bytes) := readRows { text, eol := false } []

/-- `/[",\n]/`. -/
def needsQuotes (value : Bytes) : Bool :=
  value.any fun letter => letter = quote || letter = comma || letter = lineFeed

def escape (value : Bytes) : Bytes :=
  value.flatMap fun letter => if letter = quote then [quote, quote] else [letter]

def formatValue (value : Bytes) : Bytes :=
  if needsQuotes value then [quote] ++ escape value ++ [quote] else value

def formatRow (row : List Bytes) : Bytes := [comma].intercalate (row.map formatValue)

def format (rows : List (List Bytes)) : Bytes := [lineFeed].intercalate (rows.map formatRow)

end Packetpig.Csv
