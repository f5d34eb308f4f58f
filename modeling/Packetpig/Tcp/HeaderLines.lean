/-
The header lines of tcp.py read by HTTPConversationRecordReader.

A line has nine columns and nothing in it is escaped: `split` drops an empty
value at its end, a tabulator or a carriage return in a text makes other
columns or lines, and the search for a field name looks at the columns of the
status line and of the direction too.
-/

import Packetpig.Tcp.HTTPConversationRecordReader
import Packetpig.Tcp.StreamHandler
import Mathlib.Tactic.IntervalCases

namespace Packetpig

open Text

namespace HTTPConversationRecordReader

section Lines

variable (parseDouble : Bytes → Option Int) (field : Option Bytes)

def Column (text : Bytes) : Prop := tab ∉ text ∧ carriageReturn ∉ text ∧ lineFeed ∉ text

instance (text : Bytes) : Decidable (Column text) :=
  inferInstanceAs (Decidable (tab ∉ text ∧ carriageReturn ∉ text ∧ lineFeed ∉ text))

theorem nextKeyValue_line (columns : List Bytes)
    (unbroken : ∀ column ∈ columns, carriageReturn ∉ column ∧ lineFeed ∉ column)
    (several : 2 ≤ columns.length) (rest : Bytes) :
    nextKeyValue parseDouble field ([tab].intercalate columns ++ lineFeed :: rest) =
      match readParts parseDouble field
          (JavaText.dropTrailingEmpty (columns.flatMap fun column => column.splitOn tab)) with
      | .error exception => .stop (.threw exception) rest
      | .ok (key, some tuple) => .item ⟨key, tuple⟩ rest
      | .ok (_, none) => nextKeyValue parseDouble field rest := by
  have letters : ∀ letter ∈ [tab].intercalate columns,
      letter ≠ carriageReturn ∧ letter ≠ lineFeed := by
    intro letter member
    rcases mem_intercalate member with isTab | ⟨column, inColumns, inColumn⟩
    · rw [List.mem_singleton.mp isTab]
      decide
    · have whole := unbroken column inColumns
      exact ⟨fun same => whole.1 (same ▸ inColumn), fun same => whole.2 (same ▸ inColumn)⟩
  have taken : JavaText.takeLine ([tab].intercalate columns ++ lineFeed :: rest) =
      ([tab].intercalate columns, rest) :=
    JavaText.takeLine_append _ _ (fun member => (letters _ member).2 rfl)
      (fun member => (letters _ member).1 rfl)
  have nonempty : [tab].intercalate columns ++ lineFeed :: rest ≠ [] := by simp
  rw [nextKeyValue, readLoop, JavaText.readLine, if_neg nonempty, taken]
  simp only [JavaText.split_intercalate tab columns several]
  have enough : rest.length < ([tab].intercalate columns ++ lineFeed :: rest).length := by
    rw [List.length_append, List.length_cons]
    omega
  generalize readParts parseDouble field (JavaText.dropTrailingEmpty _) = result
  rcases result with exception | ⟨key, _ | tuple⟩
  · rfl
  · exact readLoop_fuel parseDouble field _ (rest.length + 1) rest enough (by omega)
  · rfl

end Lines

theorem scan_eq_none_iff (field : Bytes) (columns : List Bytes) :
    scan field columns = none ↔ field ∉ columns.dropLast := by
  induction columns with
  | nil => simp [scan]
  | cons column columns ih =>
      cases columns with
      | nil => simp [scan]
      | cons next columns =>
          by_cases here : column = field
          · simp [scan, here]
          · rw [scan, if_neg here, ih, List.dropLast_cons_cons, List.mem_cons, not_or]
            exact (and_iff_right (Ne.symm here)).symm

theorem scan_eq_some_iff (field value : Bytes) (columns : List Bytes) :
    scan field columns = some value ↔
      ∃ before after, columns = before ++ field :: value :: after ∧ field ∉ before := by
  induction columns with
  | nil => simp [scan]
  | cons column columns ih =>
      cases columns with
      | nil =>
          apply iff_of_false (by simp [scan])
          intro found
          rcases found with ⟨before, after, same, -⟩
          exact absurd (congrArg List.length same) (by simp; omega)
      | cons next columns =>
          by_cases here : column = field
          · subst here
            rw [scan, if_pos rfl, Option.some.injEq]
            constructor
            · intro equal
              subst equal
              exact ⟨[], columns, rfl, List.not_mem_nil⟩
            · intro found
              rcases found with ⟨before, after, same, absent⟩
              cases before with
              | nil => cases same; rfl
              | cons first before =>
                  obtain ⟨rfl, -⟩ := List.cons.inj same
                  exact absurd List.mem_cons_self absent
          · rw [scan, if_neg here, ih]
            constructor
            · intro found
              rcases found with ⟨before, after, same, absent⟩
              refine ⟨column :: before, after, by rw [same]; rfl, ?_⟩
              exact fun member => (List.mem_cons.mp member).elim (Ne.symm here) absent
            · intro found
              rcases found with ⟨before, after, same, absent⟩
              cases before with
              | nil =>
                  cases same
                  exact absurd rfl here
              | cons first before =>
                  obtain ⟨-, later⟩ := List.cons.inj same
                  exact ⟨before, after, later, fun member =>
                    absent (List.mem_cons_of_mem _ member)⟩

private theorem mem_of_scan {field value : Bytes} {columns : List Bytes}
    (found : scan field columns = some value) : value ∈ columns := by
  obtain ⟨before, after, rfl, -⟩ := (scan_eq_some_iff field value columns).mp found
  simp

/-! ### What any row looks like -/

/-- The tuples of the mode with all fields: nothing in them breaks a line or a
column, and the last field is not empty. -/
def WellSplit (tuple : PigTuple) : Prop :=
  ∃ src sport dst dport status fields,
    tuple = [.text src, .text sport, .text dst, .text dport, .text status, .tuple fields] ∧
    Column status ∧ (∀ value ∈ fields, Column value) ∧
    ∀ nonempty : fields ≠ [], fields.getLast nonempty ≠ []

private theorem column_of_mem_split {text piece : Bytes}
    (member : piece ∈ JavaText.split tab (JavaText.takeLine text).1) : Column piece := by
  obtain ⟨noFeed, noReturn⟩ := JavaText.takeLine_plain text
  obtain ⟨noTab, inside⟩ := JavaText.mem_split member
  exact ⟨noTab, fun here => noReturn (inside here), fun here => noFeed (inside here)⟩

private theorem readParts_eq_tuple {parseDouble : Bytes → Option Int} {field : Option Bytes}
    {parts : List Bytes} {key : Int} {tuple : PigTuple}
    (read : readParts parseDouble field parts = .ok (key, some tuple)) :
    ∃ ts src sport dst dport columns, parts = ts :: src :: sport :: dst :: dport :: columns ∧
      (allFields field = true → ∃ status rest, columns = status :: rest ∧
        tuple = [.text src, .text sport, .text dst, .text dport, .text status,
          .tuple (rest.drop 1)]) ∧
      (allFields field = false → ∃ value, scan (field.getD []) columns = some value ∧
        tuple = [.text src, .text sport, .text dst, .text dport, .text value]) := by
  rcases parts with _ | ⟨ts, parts⟩
  · cases read
  cases number : parseDouble ts with
  | none => simp only [readParts, number, reduceCtorEq] at read
  | some found =>
      rcases parts with _ | ⟨src, _ | ⟨sport, _ | ⟨dst, _ | ⟨dport, columns⟩⟩⟩⟩
      · simp only [readParts, number, reduceCtorEq] at read
      · simp only [readParts, number, reduceCtorEq] at read
      · simp only [readParts, number, reduceCtorEq] at read
      · simp only [readParts, number, reduceCtorEq] at read
      refine ⟨ts, src, sport, dst, dport, columns, rfl, fun all => ?_, fun notAll => ?_⟩
      · rcases columns with _ | ⟨status, rest⟩
        · simp only [readParts, number, all, if_true, reduceCtorEq] at read
        · simp only [readParts, number, all, if_true, Except.ok.injEq, Prod.mk.injEq,
            Option.some.injEq] at read
          exact ⟨status, rest, rfl, read.2.symm⟩
      · simp only [readParts, number, notAll, Bool.false_eq_true, if_false, Except.ok.injEq,
          Prod.mk.injEq, Option.map_eq_some_iff] at read
        rcases read with ⟨-, value, scanned, same⟩
        exact ⟨value, scanned, same.symm⟩

private theorem wellSplit_of_readParts {parseDouble : Bytes → Option Int} {field : Option Bytes}
    (all : allFields field = true) {text : Bytes} {key : Int} {tuple : PigTuple}
    (read : readParts parseDouble field (JavaText.split tab (JavaText.takeLine text).1) =
      .ok (key, some tuple)) : WellSplit tuple := by
  obtain ⟨ts, src, sport, dst, dport, _, shape, withAll, -⟩ := readParts_eq_tuple read
  obtain ⟨status, columns, rfl, rfl⟩ := withAll all
  have clean : ∀ piece ∈ JavaText.split tab (JavaText.takeLine text).1, Column piece :=
    fun piece => column_of_mem_split
  have present : tab ∈ (JavaText.takeLine text).1 := by
    by_contra absent
    rw [JavaText.split, if_neg absent] at shape
    cases shape
  have trimmed := JavaText.split_getLast_ne_nil present
  rw [shape] at clean
  simp only [shape] at trimmed
  refine ⟨src, sport, dst, dport, status, columns.drop 1, rfl, clean status (by simp), ?_, ?_⟩
  · intro value member
    have inColumns := List.mem_of_mem_drop member
    exact clean value (by simp [inColumns])
  · intro nonempty
    have last := trimmed (by simp)
    have further : columns ≠ [] := by
      intro same
      subst same
      exact nonempty rfl
    rwa [List.getLast_cons (by simp), List.getLast_cons (by simp),
      List.getLast_cons (by simp), List.getLast_cons (by simp),
      List.getLast_cons (by simp), List.getLast_cons further,
      ← List.getLast_drop nonempty] at last

private theorem column_of_readParts {parseDouble : Bytes → Option Int} {field : Option Bytes}
    (notAll : allFields field = false) {text : Bytes} {key : Int} {tuple : PigTuple}
    (read : readParts parseDouble field (JavaText.split tab (JavaText.takeLine text).1) =
      .ok (key, some tuple)) :
    ∃ src sport dst dport value,
      tuple = [.text src, .text sport, .text dst, .text dport, .text value] ∧ Column value := by
  obtain ⟨ts, src, sport, dst, dport, columns, shape, -, withField⟩ := readParts_eq_tuple read
  obtain ⟨value, scanned, rfl⟩ := withField notAll
  have member : value ∈ JavaText.split tab (JavaText.takeLine text).1 := by
    rw [shape]
    simp [mem_of_scan scanned]
  exact ⟨src, sport, dst, dport, value, rfl, column_of_mem_split member⟩

section Rows

variable {parseDouble : Bytes → Option Int} {field : Option Bytes} {WellRead : PigTuple → Prop}
  (read : ∀ text key tuple,
    readParts parseDouble field (JavaText.split tab (JavaText.takeLine text).1) =
      .ok (key, some tuple) → WellRead tuple)

include read

private theorem wellRead_of_readLoop (fuel : Nat) (text : Bytes) {row : Keyed PigTuple}
    {rest : Bytes} (pulled : readLoop parseDouble field fuel text = .item row rest) :
    WellRead row.tuple := by
  induction fuel generalizing text with
  | zero => cases pulled
  | succ fuel ih =>
      by_cases empty : text = []
      · subst empty
        cases pulled
      · simp only [readLoop, JavaText.readLine, empty, if_false] at pulled
        cases parts : readParts parseDouble field
            (JavaText.split tab (JavaText.takeLine text).1) with
        | error exception => simp only [parts, reduceCtorEq] at pulled
        | ok result =>
            rcases result with ⟨key, _ | tuple⟩
            · simp only [parts] at pulled
              exact ih _ pulled
            · simp only [parts] at pulled
              cases pulled
              exact read _ _ _ parts

theorem wellRead_of_yields {text last : Bytes} {rows : List (Keyed PigTuple)} {ending : Ending}
    (run : Yields (nextKeyValue parseDouble field) text rows ending last) :
    ∀ row ∈ rows, WellRead row.tuple := by
  induction run with
  | stop _ => exact fun row member => absurd member List.not_mem_nil
  | item pulled _ ih =>
      intro row member
      rcases List.mem_cons.mp member with rfl | later
      · exact wellRead_of_readLoop read _ _ pulled
      · exact ih row later

end Rows

end HTTPConversationRecordReader

/-- A header of a message whose status line begins with a recognised verb. -/
structure PrintedHeader where
  status : Bytes
  direction : Direction
  name : Bytes
  value : Bytes

namespace PrintedHeader

open HTTPConversationRecordReader StreamHandler

def all (http : List HttpRecord) : List PrintedHeader :=
  http.flatMap fun convo =>
    if recognised convo.status then
      convo.headers.entries.map fun entry => ⟨convo.status, convo.direction, entry.1, entry.2⟩
    else []

def printedStatus (header : PrintedHeader) : Bytes := replaceByte lineFeed space header.status

def columns (base : List Bytes) (header : PrintedHeader) : List Bytes :=
  base ++ [header.printedStatus, header.direction.text, replaceByte lineFeed space header.name,
    replaceByte lineFeed space header.value]

def line (base : List Bytes) (header : PrintedHeader) : Bytes :=
  [tab].intercalate (header.columns base) ++ [lineFeed]

end PrintedHeader

/-- The text that `print` statements produce. -/
def printedText {τ : Type} (printed : List (Printed τ)) : Bytes :=
  printed.flatMap fun item =>
    match item with
    | .line text => text ++ [lineFeed]
    | _ => []

namespace PrintedHeader

open HTTPConversationRecordReader StreamHandler

section Printing

variable {τ : Type}

private theorem headerLines_eq (base : List Bytes) (http : List HttpRecord) :
    headerLines base http =
      (all http).map fun header => [tab].intercalate (header.columns base) := by
  induction http with
  | nil => rfl
  | cons convo http ih =>
      simp only [headerLines, all, List.flatMap_cons, List.map_append] at ih ⊢
      rw [ih]
      congr 1
      split
      · rw [List.map_map]
        rfl
      · rfl

theorem emitTsv_headers (settings : StreamSettings τ) (mode : settings.outputMode =
    ascii "http_headers") (out : OutRecord τ) :
    ∃ printed, emitTsv settings out = .ok printed ∧
      printedText printed = (all out.http).flatMap (line (base settings out)) := by
  by_cases nothing : out.http = []
  · exact ⟨[], by rw [emitTsv, if_pos nothing], by rw [nothing]; rfl⟩
  · refine ⟨(headerLines (base settings out) out.http).map .line, ?_, ?_⟩
    · rw [emitTsv, if_neg nothing, if_neg (by rw [mode]; decide), if_pos mode]
    · rw [headerLines_eq, printedText, List.flatMap_map, List.flatMap_map]
      rfl

end Printing

section Expected

variable {τ : Type} (parseDouble : Bytes → Option Int) (field : Option Bytes)
  (settings : StreamSettings τ) (out : OutRecord τ) (key : Int)

/-- The addresses and the time of a connection print as columns, and the time
reads as this key. -/
structure Addressed : Prop where
  time : Column (settings.str out.ts)
  parsed : parseDouble (settings.str out.ts) = some key
  src : Column out.src
  dst : Column out.dst

/-- With no field given every header gives its name and value, with a field only
the headers of that name give their value. -/
def expected (header : PrintedHeader) : List (Keyed PigTuple) :=
  let addresses : PigTuple :=
    [.text out.src, .text (decimal out.sport), .text out.dst, .text (decimal out.dport)]
  if allFields field then
    [⟨key, addresses ++ [.text header.status, .tuple [header.name, header.value]]⟩]
  else if header.name = field.getD [] then [⟨key, addresses ++ [.text header.value]⟩]
  else []

/-- Reading the printed text gives the expected tuples, and each line by itself
gives those of its header. -/
def Recovers : Prop :=
  (∃ printed last, emitTsv settings out = .ok printed ∧
    Yields (nextKeyValue parseDouble field) (printedText printed)
      ((all out.http).flatMap (expected field out key)) .returnedFalse last) ∧
  ∀ header ∈ all out.http, ∃ last,
    Yields (nextKeyValue parseDouble field) (header.line (base settings out))
      (expected field out key header) .returnedFalse last

def Unbroken (header : PrintedHeader) : Prop :=
  carriageReturn ∉ header.status ∧ (carriageReturn ∉ header.name ∧ lineFeed ∉ header.name) ∧
    carriageReturn ∉ header.value ∧ lineFeed ∉ header.value

/-- The columns behind the addresses as they are read: the texts are cut at
their tabulators, and empty columns at the end are dropped. -/
def cutColumns (header : PrintedHeader) : List Bytes :=
  JavaText.dropTrailingEmpty
    ([header.printedStatus, header.direction.text, header.name, header.value].flatMap
      fun column => column.splitOn tab)

def WholeReadable (header : PrintedHeader) : Prop :=
  Column header.status ∧ Column header.name ∧ Column header.value ∧ header.value ≠ []

/-- On an unbroken line the search for a field name is right: for a header of
that name the value stands behind the first column that equals the name, for
another one no column but the last may equal it. -/
def FieldReadable (name : Bytes) (header : PrintedHeader) : Prop :=
  if header.name = name then
    ∃ before after, header.cutColumns = before ++ name :: header.value :: after ∧ name ∉ before
  else name ∉ header.cutColumns.dropLast

end Expected

/-! ### Unbroken lines -/

section UnbrokenLines

variable {τ : Type} {parseDouble : Bytes → Option Int} {settings : StreamSettings τ}
  {out : OutRecord τ} {key : Int}

private theorem replaceByte_of_notMem {text : Bytes} (noFeed : lineFeed ∉ text) :
    replaceByte lineFeed space text = text := by
  unfold replaceByte
  conv_rhs => rw [← List.map_id text]
  apply List.map_congr_left
  intro letter member
  have notFeed : letter ≠ lineFeed := by
    intro same
    subst same
    exact noFeed member
  exact if_neg notFeed

private theorem printedStatus_unbroken {header : PrintedHeader}
    (noReturn : carriageReturn ∉ header.status) :
    carriageReturn ∉ header.printedStatus ∧ lineFeed ∉ header.printedStatus := by
  have blank : space ≠ carriageReturn ∧ space ≠ lineFeed := by decide
  simp only [printedStatus, replaceByte, List.mem_map, not_exists, not_and]
  constructor
  · intro letter member
    split
    · exact blank.1
    · intro same
      subst same
      exact noReturn member
  · intro letter member
    split
    · exact blank.2
    · rename_i notFeed
      exact notFeed

private theorem column_decimal (value : Nat) : Column (decimal value) :=
  ⟨notMem_decimal rfl value, notMem_decimal rfl value, notMem_decimal rfl value⟩

private theorem column_direction (direction : Direction) :
    Column direction.text ∧ direction.text ≠ [] := by
  cases direction <;> decide

private theorem splitOn_column {text : Bytes} (column : Column text) : text.splitOn tab = [text] :=
  List.splitOn_eq_singleton column.1

private theorem cutColumns_ne_nil (header : PrintedHeader) : header.cutColumns ≠ [] := by
  obtain ⟨column, nonempty⟩ := column_direction header.direction
  have member : header.direction.text ∈
      [header.printedStatus, header.direction.text, header.name, header.value].flatMap
        fun column => column.splitOn tab := by
    simp [splitOn_column column]
  exact JavaText.dropTrailingEmpty_ne_nil member nonempty

private theorem base_columns (addressed : Addressed parseDouble settings out key) :
    ∀ column ∈ base settings out, Column column := by
  intro column member
  simp only [base, List.mem_cons, List.not_mem_nil, or_false] at member
  rcases member with rfl | rfl | rfl | rfl | rfl
  · exact addressed.time
  · exact addressed.src
  · exact column_decimal _
  · exact addressed.dst
  · exact column_decimal _

private theorem nextKeyValue_unbroken (addressed : Addressed parseDouble settings out key)
    {header : PrintedHeader} (unbroken : header.Unbroken) (field : Option Bytes) (rest : Bytes) :
    nextKeyValue parseDouble field (header.line (base settings out) ++ rest) =
      match readParts parseDouble field (base settings out ++ header.cutColumns) with
      | .error exception => .stop (.threw exception) rest
      | .ok (key, some tuple) => .item ⟨key, tuple⟩ rest
      | .ok (_, none) => nextKeyValue parseDouble field rest := by
  rcases unbroken with ⟨status, name, value⟩
  have addresses := base_columns addressed
  have columnsEq : header.columns (base settings out) = base settings out ++
      [header.printedStatus, header.direction.text, header.name, header.value] := by
    rw [columns, replaceByte_of_notMem name.2, replaceByte_of_notMem value.2]
  have whole : ∀ column ∈ header.columns (base settings out),
      carriageReturn ∉ column ∧ lineFeed ∉ column := by
    rw [columnsEq, List.forall_mem_append]
    refine ⟨fun column member => (addresses column member).2, ?_⟩
    simp only [List.forall_mem_cons, List.not_mem_nil, false_implies, implies_true, and_true]
    exact ⟨printedStatus_unbroken status, (column_direction _).1.2, name, value⟩
  have shape : header.line (base settings out) ++ rest =
      [tab].intercalate (header.columns (base settings out)) ++ lineFeed :: rest := by
    rw [line, List.append_assoc, List.singleton_append]
  have uncut : (base settings out).flatMap (fun column => column.splitOn tab) =
      base settings out := by
    rw [List.flatMap_congr fun column member => splitOn_column (addresses column member)]
    exact List.flatMap_singleton' _
  rw [shape, nextKeyValue_line parseDouble field _ whole (by simp [columns]), columnsEq,
    List.flatMap_append, uncut, JavaText.dropTrailingEmpty_append _ (cutColumns_ne_nil header)]
  rfl

private def lineRows (field : Option Bytes) (out : OutRecord τ) (key : Int)
    (header : PrintedHeader) : List (Keyed PigTuple) :=
  let addresses : PigTuple :=
    [.text out.src, .text (decimal out.sport), .text out.dst, .text (decimal out.dport)]
  if allFields field then
    [⟨key, addresses ++ [.text (header.cutColumns.headD []),
      .tuple (header.cutColumns.tail.drop 1)]⟩]
  else
    ((scan (field.getD []) header.cutColumns).map fun value =>
      ⟨key, addresses ++ [.text value]⟩).toList

private theorem yields_unbroken (addressed : Addressed parseDouble settings out key)
    (field : Option Bytes) (headers : List PrintedHeader)
    (unbroken : ∀ header ∈ headers, header.Unbroken) :
    Yields (nextKeyValue parseDouble field) (headers.flatMap (line (base settings out)))
      (headers.flatMap (lineRows field out key)) .returnedFalse [] := by
  induction headers with
  | nil => exact .stop rfl
  | cons header headers ih =>
      obtain ⟨whole, later⟩ := List.forall_mem_cons.mp unbroken
      have rest := ih later
      have here := nextKeyValue_unbroken addressed whole field
        (headers.flatMap (line (base settings out)))
      obtain ⟨status, columns, shape⟩ := List.exists_cons_of_ne_nil (cutColumns_ne_nil header)
      rw [List.flatMap_cons, List.flatMap_cons]
      cases all : allFields field with
      | true =>
          simp only [base, readParts, addressed.parsed, all, List.cons_append, List.nil_append,
            if_true, shape] at here
          simp only [lineRows, all, if_true, List.singleton_append, shape, List.headD_cons,
            List.tail_cons]
          exact .item here rest
      | false =>
          simp only [base, readParts, addressed.parsed, all, List.cons_append, List.nil_append,
            Bool.false_eq_true, if_false] at here
          simp only [lineRows, all, Bool.false_eq_true, if_false]
          cases found : scan (field.getD []) header.cutColumns with
          | none =>
              simp only [found, Option.map_none] at here
              exact rest.congr_state here
          | some value =>
              simp only [found, Option.map_some] at here
              exact .item here rest

private theorem recovers_iff_lineRows (mode : settings.outputMode = ascii "http_headers")
    (addressed : Addressed parseDouble settings out key) (field : Option Bytes)
    (unbroken : ∀ header ∈ all out.http, header.Unbroken) :
    Recovers parseDouble field settings out key ↔
      ∀ header ∈ all out.http, lineRows field out key header = expected field out key header := by
  constructor
  · intro found header member
    rcases found with ⟨-, lines⟩
    obtain ⟨last, run⟩ := lines header member
    have alone := yields_unbroken addressed field [header]
      (by simpa using unbroken header member)
    simp only [List.flatMap_singleton] at alone
    exact (alone.unique run).1
  · intro same
    constructor
    · obtain ⟨printed, emitted, text⟩ := emitTsv_headers settings mode out
      refine ⟨printed, [], emitted, ?_⟩
      rw [text, ← List.flatMap_congr same]
      exact yields_unbroken addressed field _ unbroken
    · intro header member
      have alone := yields_unbroken addressed field [header]
        (by simpa using unbroken header member)
      simp only [List.flatMap_singleton, same header member] at alone
      exact ⟨[], alone⟩

private theorem wholeReadable_of_recovers {field : Option Bytes} (all : allFields field = true)
    (recovers : Recovers parseDouble field settings out key) :
    ∀ header ∈ PrintedHeader.all out.http, header.WholeReadable := by
  rcases recovers with ⟨⟨printed, last, -, run⟩, -⟩
  intro header member
  have returned := wellRead_of_yields (fun _ _ _ => wellSplit_of_readParts all) run _
    (List.mem_flatMap.mpr ⟨header, member, by rw [expected, if_pos all]; exact List.mem_cons_self⟩)
  rcases returned with ⟨_, _, _, _, status, fields, same, statusColumn, fieldColumns, last⟩
  simp only [List.cons_append, List.nil_append, List.cons.injEq, PigField.text.injEq,
    PigField.tuple.injEq, and_true] at same
  rcases same with ⟨-, -, -, -, rfl, rfl⟩
  exact ⟨statusColumn, fieldColumns _ (by simp), fieldColumns _ (by simp), last (by simp)⟩

private theorem column_of_recovers {name : Bytes} (nonempty : name ≠ [])
    (recovers : Recovers parseDouble (some name) settings out key) :
    ∀ header ∈ PrintedHeader.all out.http, header.name = name → Column header.value := by
  have notAll : allFields (some name) = false := by simpa [allFields] using nonempty
  rcases recovers with ⟨⟨printed, last, -, run⟩, -⟩
  intro header member isName
  have inRows : ⟨key, [.text out.src, .text (decimal out.sport), .text out.dst,
      .text (decimal out.dport), .text header.value]⟩ ∈
      expected (some name) out key header := by
    simp [expected, notAll, isName]
  have returned := wellRead_of_yields (fun _ _ _ => column_of_readParts notAll) run _
    (List.mem_flatMap.mpr ⟨header, member, inRows⟩)
  rcases returned with ⟨_, _, _, _, value, same, column⟩
  simp only [List.cons.injEq, PigField.text.injEq, and_true] at same
  rcases same with ⟨-, -, -, -, rfl⟩
  exact column

private theorem lineRows_of_wholeReadable {field : Option Bytes} (all : allFields field = true)
    {header : PrintedHeader} (readable : header.WholeReadable) :
    header.Unbroken ∧ lineRows field out key header = expected field out key header := by
  rcases readable with ⟨status, name, value, nonempty⟩
  have sameStatus : header.printedStatus = header.status := replaceByte_of_notMem status.2.2
  have cut : header.cutColumns = [header.status, header.direction.text, header.name,
      header.value] := by
    have kept : JavaText.dropTrailingEmpty [header.value] = [header.value] := by
      simp [JavaText.dropTrailingEmpty, List.rdropWhile_singleton, nonempty]
    have lastKept : JavaText.dropTrailingEmpty [header.value] ≠ [] := by simp [kept]
    have append := JavaText.dropTrailingEmpty_append
      [header.status, header.direction.text, header.name] lastKept
    simp only [cutColumns, List.flatMap_cons, List.flatMap_nil, sameStatus, splitOn_column status,
      splitOn_column name, splitOn_column value, splitOn_column (column_direction _).1,
      List.singleton_append]
    rw [kept] at append
    exact append
  refine ⟨⟨status.2.1, name.2, value.2⟩, ?_⟩
  rw [lineRows, expected, if_pos all, if_pos all, cut]
  rfl

private theorem lineRows_eq_expected_iff (name : Bytes) (nonempty : name ≠ [])
    (header : PrintedHeader) :
    lineRows (some name) out key header = expected (some name) out key header ↔
      header.FieldReadable name := by
  have notAll : allFields (some name) = false := by simpa [allFields] using nonempty
  simp only [lineRows, expected, notAll, Bool.false_eq_true, if_false, Option.getD_some,
    FieldReadable]
  split
  · rw [← scan_eq_some_iff]
    cases scan name header.cutColumns <;> simp
  · rw [← scan_eq_none_iff]
    cases scan name header.cutColumns <;> simp

end UnbrokenLines

end PrintedHeader

/-- With no field given the headers are read back exactly when no text breaks a
line or a column and no value is empty. With a field they are read back when no
text breaks a line and the search meets the right column first; on unbroken
lines only then, and in any case only if its values break no line or column. -/
theorem header_lines_recovered_iff {τ : Type} (parseDouble : Bytes → Option Int)
    (settings : StreamSettings τ) (mode : settings.outputMode = ascii "http_headers")
    (out : OutRecord τ) (key : Int)
    (addressed : PrintedHeader.Addressed parseDouble settings out key) :
    (∀ field, HTTPConversationRecordReader.allFields field = true →
      (PrintedHeader.Recovers parseDouble field settings out key ↔
        ∀ header ∈ PrintedHeader.all out.http, header.WholeReadable)) ∧
    ∀ name, name ≠ [] →
      ((∀ header ∈ PrintedHeader.all out.http, header.Unbroken ∧ header.FieldReadable name) →
        PrintedHeader.Recovers parseDouble (some name) settings out key) ∧
      ((∀ header ∈ PrintedHeader.all out.http, header.Unbroken) →
        (PrintedHeader.Recovers parseDouble (some name) settings out key ↔
          ∀ header ∈ PrintedHeader.all out.http, header.FieldReadable name)) ∧
      (PrintedHeader.Recovers parseDouble (some name) settings out key →
        ∀ header ∈ PrintedHeader.all out.http, header.name = name →
          HTTPConversationRecordReader.Column header.value) := by
  constructor
  · intro field all
    refine ⟨PrintedHeader.wholeReadable_of_recovers all, fun readable => ?_⟩
    have lines : ∀ header ∈ PrintedHeader.all out.http, header.Unbroken ∧
        PrintedHeader.lineRows field out key header = header.expected field out key :=
      fun header member => PrintedHeader.lineRows_of_wholeReadable all (readable header member)
    exact (PrintedHeader.recovers_iff_lineRows mode addressed field
      fun header member => (lines header member).1).mpr fun header member => (lines header member).2
  · intro name nonempty
    have onUnbroken (unbroken : ∀ header ∈ PrintedHeader.all out.http, header.Unbroken) :
        PrintedHeader.Recovers parseDouble (some name) settings out key ↔
          ∀ header ∈ PrintedHeader.all out.http, header.FieldReadable name := by
      rw [PrintedHeader.recovers_iff_lineRows mode addressed (some name) unbroken]
      exact forall₂_congr fun header _ =>
        PrintedHeader.lineRows_eq_expected_iff name nonempty header
    refine ⟨fun both => ?_, onUnbroken, PrintedHeader.column_of_recovers nonempty⟩
    exact (onUnbroken fun header member => (both header member).1).mpr
      fun header member => (both header member).2

def singleHeader (name value : Bytes) : OutRecord Nat :=
  { ts := 7
    timestamps := [7]
    src := ascii "10.0.0.1"
    sport := 40000
    dst := ascii "10.0.0.2"
    dport := 80
    endState := ascii "close"
    cdata := none
    sdata := none
    cdatalen := 0
    sdatalen := 0
    http :=
      [{ status := ascii "GET / HTTP/1.1"
         headers := AList.singleton name value
         payload := []
         direction := .s }] }

def headerSettings : StreamSettings Nat :=
  { outputFormat := ascii "tsv"
    outputMode := ascii "http_headers"
    str := decimal
    gunzip := .ok
    bodyRows := fun _ _ => .ok [] }

private theorem addressed_singleHeader (name value : Bytes) :
    PrintedHeader.Addressed (readInt 10) headerSettings (singleHeader name value) 7 where
  time := PrintedHeader.column_decimal 7
  parsed := readInt_decimal 7
  src := (by decide : HTTPConversationRecordReader.Column (ascii "10.0.0.1"))
  dst := (by decide : HTTPConversationRecordReader.Column (ascii "10.0.0.2"))

private theorem all_singleHeader (name value : Bytes) :
    PrintedHeader.all (singleHeader name value).http =
      [⟨ascii "GET / HTTP/1.1", .s, name, value⟩] := by
  have verb : StreamHandler.recognised (ascii "GET / HTTP/1.1") = true := by decide
  simp [PrintedHeader.all, singleHeader, verb]

theorem header_lines_recovered_host :
    PrintedHeader.Recovers (readInt 10) none headerSettings
      (singleHeader (ascii "host") (ascii "x")) 7 := by
  refine ((header_lines_recovered_iff (readInt 10) headerSettings rfl _ 7
    (addressed_singleHeader (ascii "host") (ascii "x"))).1 none rfl).mpr ?_
  intro header member
  rw [all_singleHeader, List.mem_singleton] at member
  subst member
  exact ⟨by decide, by decide, by decide, by decide⟩

/-- `Host: ` with nothing behind it loses its value. -/
theorem empty_value_lost :
    ¬ PrintedHeader.Recovers (readInt 10) none headerSettings
      (singleHeader (ascii "host") []) 7 := by
  intro recovers
  have readable := PrintedHeader.wholeReadable_of_recovers rfl recovers
    ⟨ascii "GET / HTTP/1.1", .s, ascii "host", []⟩ (by rw [all_singleHeader]; simp)
  exact readable.2.2.2 rfl

end Packetpig
