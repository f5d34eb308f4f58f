/-
Which rows the reader of comma-separated values gives back from what the writer
has made of them, and that it reads the lines of other writers.
-/

import Packetpig.Charts.Csv

namespace Packetpig.Csv

open Text

/-- The reader ends a line at a carriage return, and the writer does not quote
one. -/
def Kept (value : Bytes) : Prop := carriageReturn ∈ value → needsQuotes value = true

inductive Behind : Bytes → Prop
  | nothing : Behind []
  | comma (rest : Bytes) : Behind (comma :: rest)
  | lineFeed (rest : Bytes) : Behind (lineFeed :: rest)

private theorem quoted_pair (text : Bytes) :
    quoted ([quote, quote] ++ text) =
      (quote :: quote :: (quoted text).1, (quoted text).2) := rfl

private theorem unescape_pair (text : Bytes) :
    unescape ([quote, quote] ++ text) = quote :: unescape text := rfl

private theorem quoted_escape (value : Bytes) {tail : Bytes} (behind : Behind tail) :
    quoted (escape value ++ quote :: tail) = (escape value, tail) := by
  induction value with
  | nil => cases behind <;> rfl
  | cons letter value ih =>
      unfold escape at ih ⊢
      rw [List.flatMap_cons, List.append_assoc]
      by_cases isQuote : letter = quote
      · rw [if_pos isQuote, quoted_pair, ih]
        rfl
      · rw [if_neg isQuote, List.singleton_append, quoted, ih]
        · rfl
        · intro later same
          exact absurd same isQuote
        · exact isQuote

private theorem unescape_escape (value : Bytes) : unescape (escape value) = value := by
  induction value with
  | nil => rfl
  | cons letter value ih =>
      unfold escape at ih ⊢
      rw [List.flatMap_cons]
      by_cases isQuote : letter = quote
      · rw [if_pos isQuote, isQuote, unescape_pair, ih]
      · rw [if_neg isQuote, List.singleton_append, unescape, ih]
        intro later same
        exact absurd same isQuote

private theorem afterQuote_eq {tail : Bytes} (behind : Behind tail) :
    afterQuote tail = afterSeparator tail := by
  cases behind <;> rfl

private theorem token_plain {letter : Byte} {rest : Bytes} (noQuote : letter ≠ quote) :
    token ⟨letter :: rest, false⟩ =
      (.value ((letter :: rest).takeWhile fun letter => !separates letter),
        afterSeparator ((letter :: rest).drop
          ((letter :: rest).takeWhile fun letter => !separates letter).length)) :=
  if_neg noQuote

private theorem not_needsQuotes {value : Bytes} (plain : needsQuotes value = false) :
    quote ∉ value ∧ comma ∉ value ∧ lineFeed ∉ value := by
  simp only [needsQuotes, List.any_eq_false, Bool.or_eq_true, decide_eq_true_eq, not_or] at plain
  exact ⟨fun member => (plain _ member).1.1 rfl, fun member => (plain _ member).1.2 rfl,
    fun member => (plain _ member).2 rfl⟩

private theorem takeWhile_value {value tail : Bytes}
    (plain : comma ∉ value ∧ carriageReturn ∉ value ∧ lineFeed ∉ value) (behind : Behind tail) :
    (value ++ tail).takeWhile (fun letter => !separates letter) = value := by
  have all : ∀ letter ∈ value, (!separates letter) = true := by
    intro letter member
    have apart : letter ≠ comma ∧ letter ≠ carriageReturn ∧ letter ≠ lineFeed :=
      ⟨fun same => plain.1 (same ▸ member), fun same => plain.2.1 (same ▸ member),
        fun same => plain.2.2 (same ▸ member)⟩
    simp [separates, apart]
  rw [List.takeWhile_append_of_pos all]
  cases behind <;> simp [separates]

theorem token_formatValue {value tail : Bytes} (kept : Kept value) (behind : Behind tail)
    (nonempty : formatValue value ++ tail ≠ []) :
    token ⟨formatValue value ++ tail, false⟩ = (.value value, afterSeparator tail) := by
  unfold formatValue at nonempty ⊢
  by_cases quotes : needsQuotes value = true
  · rw [if_pos quotes, List.append_assoc, List.append_assoc]
    change (Token.value (unescape (quoted (escape value ++ quote :: tail)).1),
      afterQuote (quoted (escape value ++ quote :: tail)).2) = _
    rw [quoted_escape value behind, unescape_escape, afterQuote_eq behind]
  · rw [if_neg quotes] at nonempty ⊢
    obtain ⟨noQuote, noComma, noFeed⟩ := not_needsQuotes (Bool.not_eq_true _ ▸ quotes)
    have noReturn : carriageReturn ∉ value := fun member => quotes (kept member)
    have taken := takeWhile_value ⟨noComma, noReturn, noFeed⟩ behind
    obtain ⟨letter, rest, text⟩ := List.exists_cons_of_ne_nil nonempty
    have plain : letter ≠ quote := by
      cases value with
      | nil =>
          cases behind with
          | nothing => exact absurd rfl nonempty
          | comma =>
              cases text
              decide
          | lineFeed =>
              cases text
              decide
      | cons first value =>
          cases text
          intro isQuote
          exact noQuote (isQuote ▸ List.mem_cons_self)
    rw [text, token_plain plain, ← text, taken, List.drop_left]

theorem token_of_not_kept {value : Bytes} (cut : ¬ Kept value) (tail : Bytes) :
    ∃ read after, token ⟨formatValue value ++ tail, false⟩ = (.value read, after) ∧
      read ≠ value := by
  unfold Kept at cut
  rw [Classical.not_imp, Bool.not_eq_true] at cut
  obtain ⟨member, plain⟩ := cut
  rw [formatValue, if_neg (Bool.not_eq_true _ ▸ plain)]
  cases value with
  | nil => cases member
  | cons letter rest =>
      have noQuote : letter ≠ quote :=
        fun isQuote => (not_needsQuotes plain).1 (isQuote ▸ List.mem_cons_self)
      refine ⟨_, _, token_plain noQuote, ?_⟩
      intro same
      rw [← same] at member
      have separator := List.mem_takeWhile_imp member
      revert separator
      decide

/-! ### Rows -/

theorem readRow_value {scanner after : Scanner} {t : Bytes}
    (read : token scanner = (.value t, after)) (a : List Bytes) :
    readRow scanner a = readRow after (a ++ [t]) := by
  rw [readRow]
  split
  · rename_i read'
    rw [read] at read'
    cases read'
    rfl
  · rename_i noValue read'
    rw [read] at read'
    cases read'
    exact absurd rfl (noValue t)

theorem readRow_end {scanner after : Scanner} {other : Token} (noValue : ∀ t, other ≠ .value t)
    (read : token scanner = (other, after)) (a : List Bytes) : readRow scanner a = (a, after) := by
  rw [readRow]
  split
  · rename_i read'
    rw [read] at read'
    cases read'
    exact absurd rfl (noValue _)
  · rename_i read'
    rw [read] at read'
    cases read'
    rfl

private theorem readRow_append (scanner : Scanner) (b a : List Bytes) :
    readRow scanner (b ++ a) = (b ++ (readRow scanner a).1, (readRow scanner a).2) := by
  fun_induction readRow scanner a with
  | case1 scanner a t after read shorter ih =>
      rw [readRow_value read, List.append_assoc, ih]
  | case2 scanner a other after noValue read =>
      rw [readRow_end noValue read]

private theorem readRow_cons {scanner after : Scanner} {t : Bytes}
    (read : token scanner = (.value t, after)) :
    readRow scanner [] = (t :: (readRow after []).1, (readRow after []).2) := by
  have whole := readRow_append after [t] []
  rw [List.append_nil] at whole
  rw [readRow_value read, List.nil_append, whole]
  rfl

private theorem readRow_nothing (eol : Bool) : readRow ⟨[], eol⟩ [] = ([], ⟨[], eol⟩) := by
  refine readRow_end ?_ rfl []
  intro t
  exact Token.noConfusion

private theorem readRow_lineFeed (rest : Bytes) :
    (readRow ⟨rest, true⟩ []).1 = [] ∧ (readRow ⟨rest, true⟩ []).2.text = rest ∧
      (rest ≠ [] → (readRow ⟨rest, true⟩ []).2.eol = false) := by
  cases rest with
  | nil =>
      rw [readRow_nothing]
      exact ⟨rfl, rfl, fun nonempty => absurd rfl nonempty⟩
  | cons letter rest =>
      have ended : readRow ⟨letter :: rest, true⟩ [] = ([], ⟨letter :: rest, false⟩) := by
        refine readRow_end ?_ rfl []
        intro t
        exact Token.noConfusion
      rw [ended]
      exact ⟨rfl, rfl, fun _ => rfl⟩

theorem formatRow_cons_cons (value next : Bytes) (row : List Bytes) :
    formatRow (value :: next :: row) = formatValue value ++ comma :: formatRow (next :: row) := by
  rfl

private theorem formatRow_singleton (value : Bytes) : formatRow [value] = formatValue value := by
  simp [formatRow, List.intercalate]

private theorem formatValue_eq_nil {value : Bytes} : formatValue value = [] ↔ value = [] := by
  unfold formatValue
  split
  · rename_i quotes
    constructor
    · intro empty
      cases empty
    · intro empty
      rw [empty] at quotes
      cases quotes
  · exact Iff.rfl

/-- Behind a row is the next line, or nothing. -/
def AtLine (tail : Bytes) (scanner : Scanner) : Prop :=
  scanner.text = tail.tail ∧ (tail.tail ≠ [] → scanner.eol = false)

def KeptRow (row : List Bytes) (tail : Bytes) : Prop :=
  (∀ value ∈ row, Kept value) ∧ (tail = [] → row.getLast? ≠ some [])

private theorem ne_of_not_kept {value : Bytes} (cut : ¬ Kept value) (tail : Bytes)
    (row : List Bytes) : (readRow ⟨formatValue value ++ tail, false⟩ []).1 ≠ value :: row := by
  obtain ⟨read, after, isRead, different⟩ := token_of_not_kept cut tail
  rw [readRow_cons isRead]
  intro same
  exact different (List.head_eq_of_cons_eq same)

private theorem readRow_last {value : Bytes} (kept : Kept value) {tail : Bytes}
    (atEnd : tail = [] ∨ ∃ rest, tail = lineFeed :: rest) :
    ((readRow ⟨formatValue value ++ tail, false⟩ []).1 = [value] ↔ KeptRow [value] tail) ∧
      (KeptRow [value] tail → AtLine tail (readRow ⟨formatValue value ++ tail, false⟩ []).2) := by
  have keptRow : KeptRow [value] tail ↔ (tail = [] → value ≠ []) := by
    simp [KeptRow, kept]
  rw [keptRow]
  rcases atEnd with rfl | ⟨rest, rfl⟩
  · by_cases empty : value = []
    · subst empty
      have nothing : readRow ⟨formatValue [] ++ [], false⟩ [] = ([], ⟨[], false⟩) :=
        readRow_nothing false
      rw [nothing]
      simp
    · have nonempty : formatValue value ++ [] ≠ [] := by
        rw [List.append_nil]
        exact fun same => empty (formatValue_eq_nil.mp same)
      rw [readRow_cons (token_formatValue kept .nothing nonempty)]
      change ([value].append (readRow ⟨[], false⟩ []).1 = _ ↔ _) ∧
        (_ → AtLine [] (readRow ⟨[], false⟩ []).2)
      rw [readRow_nothing]
      exact ⟨iff_of_true rfl fun _ => empty, fun _ => ⟨rfl, fun some => absurd rfl some⟩⟩
  · have nonempty : formatValue value ++ lineFeed :: rest ≠ [] :=
      List.append_ne_nil_of_right_ne_nil _ (List.cons_ne_nil _ _)
    have read : token ⟨formatValue value ++ lineFeed :: rest, false⟩ = (.value value, ⟨rest, true⟩) :=
      token_formatValue kept (.lineFeed rest) nonempty
    obtain ⟨noMore, text, eol⟩ := readRow_lineFeed rest
    rw [readRow_cons read, noMore]
    exact ⟨iff_of_true rfl fun same => absurd same (List.cons_ne_nil _ _), fun _ => ⟨text, eol⟩⟩

theorem readRow_formatRow {row : List Bytes} (filled : row ≠ []) {tail : Bytes}
    (atEnd : tail = [] ∨ ∃ rest, tail = lineFeed :: rest) :
    ((readRow ⟨formatRow row ++ tail, false⟩ []).1 = row ↔ KeptRow row tail) ∧
      (KeptRow row tail → AtLine tail (readRow ⟨formatRow row ++ tail, false⟩ []).2) := by
  induction row with
  | nil => exact absurd rfl filled
  | cons value row ih =>
      by_cases kept : Kept value
      · cases row with
        | nil =>
            rw [formatRow_singleton]
            exact readRow_last kept atEnd
        | cons next row =>
            have read := token_formatValue kept (.comma (formatRow (next :: row) ++ tail))
              (List.append_ne_nil_of_right_ne_nil _ (List.cons_ne_nil _ _))
            have inside := ih (List.cons_ne_nil next row)
            have sameKept : KeptRow (value :: next :: row) tail ↔ KeptRow (next :: row) tail := by
              unfold KeptRow
              rw [List.forall_mem_cons, List.getLast?_cons_cons]
              simp [kept]
            have whole : readRow ⟨formatRow (value :: next :: row) ++ tail, false⟩ [] =
                (value :: (readRow ⟨formatRow (next :: row) ++ tail, false⟩ []).1,
                  (readRow ⟨formatRow (next :: row) ++ tail, false⟩ []).2) := by
              rw [formatRow_cons_cons, List.append_assoc, List.cons_append]
              exact readRow_cons read
            rw [whole, sameKept, List.cons_inj_right]
            exact inside
      · have noRow : ¬ KeptRow (value :: row) tail := fun keptRow => kept (keptRow.1 _ List.mem_cons_self)
        have different : (readRow ⟨formatRow (value :: row) ++ tail, false⟩ []).1 ≠ value :: row := by
          cases row with
          | nil =>
              rw [formatRow_singleton]
              exact ne_of_not_kept kept tail []
          | cons next row =>
              rw [formatRow_cons_cons, List.append_assoc]
              exact ne_of_not_kept kept _ _
        exact ⟨iff_of_false different noRow, fun keptRow => absurd keptRow noRow⟩

/-! ### All rows -/

private theorem readRows_append (scanner : Scanner) (before rows : List (List Bytes)) :
    readRows scanner (before ++ rows) = before ++ readRows scanner rows := by
  fun_induction readRows scanner rows with
  | case1 scanner rows ended => rw [readRows, dif_pos ended]
  | case2 scanner rows ended smaller ih => rw [readRows, dif_neg ended, List.append_assoc, ih]

private theorem readRows_nothing (eol : Bool) : readRows ⟨[], eol⟩ [] = [] := by
  rw [readRows]
  rfl

private theorem readRows_cons {scanner : Scanner} (nonempty : scanner.text ≠ []) :
    readRows scanner [] = (readRow scanner []).1 :: readRows (readRow scanner []).2 [] := by
  have more : (token scanner).1 ≠ .EOF := by
    intro ended
    exact nonempty (token_EOF (Prod.ext ended rfl)).1
  have whole := readRows_append (readRow scanner []).2 [(readRow scanner []).1] []
  rw [List.append_nil] at whole
  rw [readRows, dif_neg more, List.nil_append, whole]
  rfl

private theorem AtLine.readRows_eq {tail : Bytes} {scanner : Scanner}
    (atLine : AtLine tail scanner) : readRows scanner [] = readRows ⟨tail.tail, false⟩ [] := by
  rcases scanner with ⟨text, eol⟩
  obtain ⟨sameText, noEnd⟩ := atLine
  change text = tail.tail at sameText
  subst sameText
  by_cases nothing : tail.tail = []
  · rw [nothing, readRows_nothing, readRows_nothing]
  · rw [show eol = false from noEnd nothing]

theorem readRows_line {row : List Bytes} (filled : row ≠ []) {rest : Bytes}
    (kept : ∀ value ∈ row, Kept value) :
    readRows ⟨formatRow row ++ lineFeed :: rest, false⟩ [] = row :: readRows ⟨rest, false⟩ [] := by
  have keptRow : KeptRow row (lineFeed :: rest) :=
    ⟨kept, fun same => absurd same (List.cons_ne_nil _ _)⟩
  obtain ⟨isRow, atLine⟩ := readRow_formatRow filled (.inr ⟨rest, rfl⟩)
  rw [readRows_cons (List.append_ne_nil_of_right_ne_nil _ (List.cons_ne_nil _ _)),
    isRow.mpr keptRow, (atLine keptRow).readRows_eq]
  rfl

def Unquoted (value : Bytes) : Prop := needsQuotes value = false ∧ carriageReturn ∉ value

theorem unquoted_nil : Unquoted [] := ⟨rfl, List.not_mem_nil⟩

theorem Unquoted.append {first second : Bytes} (left : Unquoted first) (right : Unquoted second) :
    Unquoted (first ++ second) := by
  constructor
  · rw [needsQuotes, List.any_append, Bool.or_eq_false_iff]
    exact ⟨left.1, right.1⟩
  · rw [List.mem_append, not_or]
    exact ⟨left.2, right.2⟩

theorem integer_unquoted (value : Int) : Unquoted (integer value) := by
  have apart : ∀ letter : Byte, letter ≠ 45 → isDigit 10 letter = false → letter ∉ integer value :=
    fun letter noSign noDigit => notMem_integer noSign noDigit value
  refine ⟨?_, apart _ (by decide) (by decide)⟩
  rw [needsQuotes, List.any_eq_false]
  intro letter member
  simp only [Bool.or_eq_true, decide_eq_true_eq, not_or]
  refine ⟨⟨?_, ?_⟩, ?_⟩
  · rintro rfl
    exact apart _ (by decide) (by decide) member
  · rintro rfl
    exact apart _ (by decide) (by decide) member
  · rintro rfl
    exact apart _ (by decide) (by decide) member

theorem parseRows_lines {rows : List (List Bytes)} (filled : ∀ row ∈ rows, row ≠ [])
    (unquoted : ∀ row ∈ rows, ∀ value ∈ row, Unquoted value) :
    parseRows (rows.flatMap fun row => [comma].intercalate row ++ [lineFeed]) = rows := by
  unfold parseRows
  induction rows with
  | nil => exact readRows_nothing false
  | cons row rows ih =>
      obtain ⟨filledRow, filledRows⟩ := List.forall_mem_cons.mp filled
      obtain ⟨unquotedRow, unquotedRows⟩ := List.forall_mem_cons.mp unquoted
      have same : row.map formatValue = row := by
        refine (List.map_congr_left ?_).trans (List.map_id row)
        intro value member
        exact if_neg (Bool.not_eq_true _ ▸ (unquotedRow value member).1)
      have line : formatRow row = [comma].intercalate row := by rw [formatRow, same]
      rw [List.flatMap_cons, List.append_assoc, List.singleton_append, ← line,
        readRows_line filledRow, ih filledRows unquotedRows]
      exact fun value member hasReturn => absurd hasReturn (unquotedRow value member).2

theorem parseRows_columns {α : Type} {columns : α → List Bytes} {rows : List α}
    (filled : ∀ row, columns row ≠ [])
    (unquoted : ∀ row ∈ rows, ∀ value ∈ columns row, Unquoted value) :
    parseRows (rows.flatMap fun row => [comma].intercalate (columns row) ++ [lineFeed]) =
      rows.map columns := by
  have read := @parseRows_lines (rows.map columns)
    (List.forall_mem_map.mpr fun row _ => filled row) (List.forall_mem_map.mpr unquoted)
  rwa [List.flatMap_map] at read

structure Readable (rows : List (List Bytes)) : Prop where
  filled : ∀ row ∈ rows, row ≠ []
  kept : ∀ row ∈ rows, ∀ value ∈ row, Kept value
  ended : ∀ row, rows.getLast? = some row → row.getLast? ≠ some []

private theorem format_singleton (row : List Bytes) : format [row] = formatRow row := by
  simp [format, List.intercalate]

private theorem format_cons_cons (row next : List Bytes) (rows : List (List Bytes)) :
    format (row :: next :: rows) = formatRow row ++ lineFeed :: format (next :: rows) := rfl

private theorem readable_singleton (row : List Bytes) :
    Readable [row] ↔ row ≠ [] ∧ KeptRow row [] := by
  constructor
  · intro readable
    exact ⟨readable.filled row (List.mem_singleton_self _),
      readable.kept row (List.mem_singleton_self _), fun _ => readable.ended row rfl⟩
  · rintro ⟨filled, kept, ended⟩
    constructor
    · intro other member
      rwa [List.mem_singleton.mp member]
    · intro other member
      rwa [List.mem_singleton.mp member]
    · intro other same
      cases same
      exact ended rfl

private theorem readable_cons_cons (row next : List Bytes) (rows : List (List Bytes)) :
    Readable (row :: next :: rows) ↔
      row ≠ [] ∧ (∀ value ∈ row, Kept value) ∧ Readable (next :: rows) := by
  constructor
  · intro readable
    have filled := List.forall_mem_cons.mp readable.filled
    have kept := List.forall_mem_cons.mp readable.kept
    exact ⟨filled.1, kept.1, filled.2, kept.2, readable.ended⟩
  · rintro ⟨filled, kept, readable⟩
    exact ⟨List.forall_mem_cons.mpr ⟨filled, readable.filled⟩,
      List.forall_mem_cons.mpr ⟨kept, readable.kept⟩, readable.ended⟩

private theorem last_row_iff (row : List Bytes) :
    readRows ⟨formatRow row, false⟩ [] = [row] ↔ row ≠ [] ∧ KeptRow row [] := by
  by_cases filled : row = []
  · subst filled
    rw [show formatRow [] = [] from rfl, readRows_nothing]
    simp
  · obtain ⟨isRow, atLine⟩ := readRow_formatRow filled (.inl rfl)
    rw [List.append_nil] at isRow atLine
    by_cases empty : formatRow row = []
    · rw [empty, readRow_nothing] at isRow
      rw [empty, readRows_nothing]
      constructor
      · intro same
        cases same
      · intro kept
        exact absurd (isRow.mpr kept.2).symm filled
    · rw [readRows_cons empty, and_iff_right filled]
      constructor
      · intro same
        exact isRow.mp (List.head_eq_of_cons_eq same)
      · intro kept
        rw [isRow.mpr kept, (atLine kept).readRows_eq, List.tail_nil, readRows_nothing]

private theorem first_row_iff (row : List Bytes) (rest : Bytes) (rows : List (List Bytes)) :
    readRows ⟨formatRow row ++ lineFeed :: rest, false⟩ [] = row :: rows ↔
      row ≠ [] ∧ (∀ value ∈ row, Kept value) ∧ readRows ⟨rest, false⟩ [] = rows := by
  by_cases filled : row = []
  · subst filled
    have read : token ⟨formatRow [] ++ lineFeed :: rest, false⟩ = (.value [], ⟨rest, true⟩) := rfl
    rw [readRows_cons (List.cons_ne_nil _ _), readRow_cons read]
    simp
  · by_cases kept : ∀ value ∈ row, Kept value
    · rw [readRows_line filled kept, List.cons_inj_right, and_iff_right filled, and_iff_right kept]
    · have isRow := (readRow_formatRow filled (.inr ⟨rest, rfl⟩)).1
      rw [readRows_cons (List.append_ne_nil_of_right_ne_nil _ (List.cons_ne_nil _ _))]
      constructor
      · intro same
        exact absurd (isRow.mp (List.head_eq_of_cons_eq same)).1 kept
      · intro all
        exact absurd all.2.1 kept

/-- Reading what was written gives the rows if no row is empty, every carriage
return stands in quotes and the last value of all is not empty, and only then. -/
theorem parseRows_format_iff (rows : List (List Bytes)) :
    parseRows (format rows) = rows ↔ Readable rows := by
  unfold parseRows
  induction rows with
  | nil =>
      refine iff_of_true (readRows_nothing false) ⟨?_, ?_, ?_⟩
      · exact fun row member => absurd member List.not_mem_nil
      · exact fun row member => absurd member List.not_mem_nil
      · exact fun row same => absurd same (by simp)
  | cons row rows ih =>
      cases rows with
      | nil =>
          rw [format_singleton, readable_singleton]
          exact last_row_iff row
      | cons next rows =>
          rw [format_cons_cons, readable_cons_cons, ← ih]
          exact first_row_iff row _ _

end Packetpig.Csv
