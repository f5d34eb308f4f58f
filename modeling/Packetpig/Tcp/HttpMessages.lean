/-
HttpHandler on the wire form of well-formed messages.

The expression for header lines wants a line end behind each value, and the
last line of a header block has lost its own to the blank line, so its entry is
missing. The payload of a record is everything behind the blank line, later
messages included.
-/

import Packetpig.Tcp.HttpHandler

namespace Packetpig

open Text

def Plain (text : Bytes) : Prop := carriageReturn ∉ text ∧ lineFeed ∉ text

instance (text : Bytes) : Decidable (Plain text) :=
  inferInstanceAs (Decidable (carriageReturn ∉ text ∧ lineFeed ∉ text))

structure HttpMessage where
  status : Bytes
  headers : List (Bytes × Bytes)
  body : Bytes
  statusPlain : Plain status
  namePlain : ∀ header ∈ headers, Plain header.1 ∧ colon ∉ header.1
  valuePlain : ∀ header ∈ headers, Plain header.2
  distinct : (headers.map fun header => lower header.1).Nodup

namespace HttpMessage

def headerText (header : Bytes × Bytes) : Bytes := header.1 ++ (ascii ": " ++ header.2)

def headerLines (headers : List (Bytes × Bytes)) : Bytes :=
  headers.flatMap fun header => headerText header ++ crlf

def wire (message : HttpMessage) : Bytes :=
  message.status ++ (crlf ++ (headerLines message.headers ++ (crlf ++ message.body)))

end HttpMessage

/-- A message that announces its own length and keeps the connection open. -/
structure KeepAliveMessage extends HttpMessage where
  contentLength : ∃ header ∈ headers, lower header.1 = ascii "content-length" ∧
    readInt 10 header.2 = some (body.length : Int)
  connection : ∃ header ∈ headers, lower header.1 = ascii "connection" ∧
    lower header.2 = ascii "keep-alive"
  plainCoding : ∀ header ∈ headers, lower header.1 ≠ ascii "transfer-encoding" ∧
    lower header.1 ≠ ascii "content-encoding"

namespace HttpHandler

open HttpMessage Pattern

private theorem not_crlf_prefix (line rest : Bytes) (nonempty : line ≠ [])
    (plain : carriageReturn ∉ line) : ¬ crlf <+: line ++ rest := by
  obtain ⟨head, tail, rfl⟩ := List.exists_cons_of_ne_nil nonempty
  intro found
  rcases found with ⟨after, same⟩
  have first : carriageReturn = head := (List.cons.inj same).1
  exact plain (first ▸ List.mem_cons_self)

private theorem splitOnce_line (line rest : Bytes) (plain : carriageReturn ∉ line)
    (more : ¬ crlf <+: rest) :
    splitOnce (crlf ++ crlf) (line ++ (crlf ++ rest)) =
      (splitOnce (crlf ++ crlf) rest).map fun parts =>
        (line ++ (crlf ++ parts.1), parts.2) := by
  have atReturn : ¬ crlf ++ crlf <+: carriageReturn :: lineFeed :: rest := by
    intro found
    rcases found with ⟨after, same⟩
    exact more ⟨after, (List.cons.inj (List.cons.inj same).2).2⟩
  have atFeed : ¬ crlf ++ crlf <+: lineFeed :: rest := by
    intro found
    rcases found with ⟨after, same⟩
    exact absurd (List.cons.inj same).1 (by decide)
  change splitOnce (carriageReturn :: _) _ = _
  rw [splitOnce_append carriageReturn _ _ _ plain]
  change ((splitOnce (crlf ++ crlf) (carriageReturn :: lineFeed :: rest)).map _) = _
  rw [splitOnce_skip _ _ _ atReturn, splitOnce_skip _ _ _ atFeed, Option.map_map, Option.map_map]
  rfl

private theorem headerText_ne_nil (header : Bytes × Bytes) : headerText header ≠ [] := by
  simp [headerText, ascii]

private theorem headerText_plain {header : Bytes × Bytes} (name : Plain header.1)
    (value : Plain header.2) : Plain (headerText header) := by
  have separator : carriageReturn ∉ ascii ": " ∧ lineFeed ∉ ascii ": " := by decide
  simp only [Plain, headerText, List.mem_append, not_or]
  exact ⟨⟨name.1, separator.1, value.1⟩, name.2, separator.2, value.2⟩

private theorem splitOnce_headerLines (init : List (Bytes × Bytes)) (last : Bytes × Bytes)
    (rest : Bytes) (plain : ∀ header ∈ init ++ [last], Plain (headerText header)) :
    splitOnce (crlf ++ crlf) (headerLines (init ++ [last]) ++ (crlf ++ rest)) =
      some (headerLines init ++ headerText last, rest) := by
  induction init with
  | nil =>
      have lastPlain := plain last (by simp)
      have blank : splitOnce (crlf ++ crlf) ((crlf ++ crlf) ++ rest) = some ([], rest) :=
        splitOnce_here _ _ (by decide)
      simp only [headerLines, List.nil_append, List.flatMap_singleton, List.append_assoc]
      change splitOnce (carriageReturn :: _) _ = _
      rw [splitOnce_append carriageReturn _ _ _ lastPlain.1]
      rw [List.append_assoc] at blank
      exact (congrArg (Option.map _) blank).trans (by simp)
  | cons header init ih =>
      have later : ∀ header ∈ init ++ [last], Plain (headerText header) :=
        fun other member => plain other (List.mem_cons_of_mem _ member)
      have next : ¬ crlf <+: headerLines (init ++ [last]) ++ (crlf ++ rest) := by
        obtain ⟨second, others, same⟩ : ∃ second others, init ++ [last] = second :: others :=
          List.exists_cons_of_ne_nil (by simp)
        have secondPlain := later second (by rw [same]; exact List.mem_cons_self)
        rw [same, headerLines, List.flatMap_cons, List.append_assoc, List.append_assoc]
        exact not_crlf_prefix _ _ (headerText_ne_nil second) secondPlain.1
      have unfolded : headerLines (header :: init ++ [last]) ++ (crlf ++ rest) =
          headerText header ++ (crlf ++ (headerLines (init ++ [last]) ++ (crlf ++ rest))) := by
        simp [headerLines]
      rw [unfolded, splitOnce_line _ _ (plain header List.mem_cons_self).1 next, ih later]
      simp [headerLines]

private theorem not_prefix_drop {word before after : Bytes} {letter : Byte} {count : Nat}
    (starts : word.head? = some letter) (absent : letter ∉ before)
    (inside : count < before.length) :
    ¬ word <+: before.drop count ++ after := by
  intro found
  rcases found with ⟨rest, same⟩
  have first := congrArg List.head? same
  rw [List.head?_append, starts, List.head?_append, List.head?_drop,
    List.getElem?_eq_getElem inside] at first
  simp only [Option.some_or, Option.some.injEq] at first
  exact absent (first ▸ List.getElem_mem inside)

private theorem find_headerLine {header : Bytes × Bytes} (rest : Bytes)
    (name : Plain header.1 ∧ colon ∉ header.1) (value : Plain header.2) :
    find headerPattern (headerText header ++ crlf ++ rest) = some ([header.1, header.2], rest) := by
  have notFeed : ∀ text : Bytes, lineFeed ∉ text →
      ∀ letter ∈ text, (decide (letter ≠ lineFeed)) = true := by
    intro text plain letter member
    exact decide_eq_true fun same => plain (same ▸ member)
  have atEnd : matchHere [.literal crlf] (crlf ++ rest) = some ([], rest) := by
    rw [matchHere_literal_append]
    rfl
  have atValue : matchHere [.run true false 0 none (· ≠ lineFeed), .literal crlf]
      (header.2 ++ (crlf ++ rest)) = some ([header.2], rest) :=
    matchHere_lazy true _ _ header.2 _ (notFeed _ value.2) _ atEnd fun count inside =>
      matchHere_literal_of_not_prefix _ _ _ (not_prefix_drop rfl value.1 inside)
  have atSeparator : matchHere [.literal (ascii ": "), .run true false 0 none (· ≠ lineFeed),
      .literal crlf] (ascii ": " ++ (header.2 ++ (crlf ++ rest))) = some ([header.2], rest) := by
    rw [matchHere_literal_append, atValue]
  have atName := matchHere_lazy true (· ≠ lineFeed) _ header.1 _ (notFeed _ name.1.2) _ atSeparator
    fun count inside =>
      matchHere_literal_of_not_prefix _ _ _ (not_prefix_drop rfl name.2 inside)
  have shape : headerText header ++ crlf ++ rest =
      header.1 ++ (ascii ": " ++ (header.2 ++ (crlf ++ rest))) := by
    simp [headerText]
  rw [shape]
  exact find_of_matchHere atName

private theorem find_last (text : Bytes) (plain : Plain text) :
    find headerPattern text = none := by
  have member : Piece.literal crlf ∈ headerPattern := by simp [headerPattern]
  apply find_eq_none_of_not_infix member
  intro inside
  exact plain.1 (inside.subset List.mem_cons_self)

private theorem findAll_headerLines (init : List (Bytes × Bytes)) (text : Bytes)
    (plain : Plain text)
    (names : ∀ header ∈ init, Plain header.1 ∧ colon ∉ header.1)
    (values : ∀ header ∈ init, Plain header.2) (fuel : Nat) (enough : init.length < fuel) :
    findAll headerPattern fuel (headerLines init ++ text) =
      init.map fun header => [header.1, header.2] := by
  induction init generalizing fuel with
  | nil =>
      cases fuel with
      | zero => exact absurd enough (Nat.not_lt_zero _)
      | succ fuel =>
          change findAll headerPattern (fuel + 1) text = []
          rw [findAll, find_last text plain]
  | cons header init ih =>
      cases fuel with
      | zero => exact absurd enough (Nat.not_lt_zero _)
      | succ fuel =>
          have here := find_headerLine (headerLines init ++ text)
            (names header List.mem_cons_self) (values header List.mem_cons_self)
          have later := ih (fun other member => names other (List.mem_cons_of_mem _ member))
            (fun other member => values other (List.mem_cons_of_mem _ member)) fuel
            (by simpa using enough)
          have shape : headerLines (header :: init) ++ text =
              headerText header ++ crlf ++ (headerLines init ++ text) := by
            simp [headerLines]
          rw [shape, findAll, here, List.map_cons, ← later]

private theorem length_le_headerLines (headers : List (Bytes × Bytes)) :
    headers.length ≤ (headerLines headers).length := by
  induction headers with
  | nil => exact Nat.le_refl 0
  | cons header headers ih =>
      have line : 0 < (headerText header ++ crlf).length := by simp [crlf]
      simp only [headerLines, List.flatMap_cons, List.length_append] at ih line ⊢
      simp only [List.length_cons]
      omega

theorem headerPairs_headerLines (init : List (Bytes × Bytes)) (last : Bytes × Bytes)
    (names : ∀ header ∈ init ++ [last], Plain header.1 ∧ colon ∉ header.1)
    (values : ∀ header ∈ init ++ [last], Plain header.2) :
    headerPairs (headerLines init ++ headerText last) =
      init.map fun header => (lower header.1, header.2) := by
  have lastMember : last ∈ init ++ [last] := by simp
  have lastPlain := headerText_plain (names last lastMember).1 (values last lastMember)
  have enough : init.length < (headerLines init ++ headerText last).length := by
    have lines := length_le_headerLines init
    have positive := List.length_pos_of_ne_nil (headerText_ne_nil last)
    rw [List.length_append]
    omega
  rw [headerPairs, findAll_headerLines init _ lastPlain
    (fun header member => names header (List.mem_append_left _ member))
    (fun header member => values header (List.mem_append_left _ member)) _ enough,
    List.filterMap_map]
  exact congrFun List.filterMap_eq_map' init

private theorem dict_append (pairs : List (Bytes × Bytes)) (pair : Bytes × Bytes) :
    dict (pairs ++ [pair]) = (dict pairs).insert pair.1 pair.2 := by
  simp only [dict, List.foldl_append, List.foldl_cons, List.foldl_nil]

theorem lookup_dict_iff (pairs : List (Bytes × Bytes)) (distinct : (pairs.map Prod.fst).Nodup)
    (key value : Bytes) : (dict pairs).lookup key = some value ↔ (key, value) ∈ pairs := by
  induction pairs using List.reverseRecOn with
  | nil => simp [dict]
  | append_singleton pairs pair ih =>
      rw [List.map_append, List.nodup_append] at distinct
      rcases distinct with ⟨distinct, -, separate⟩
      rw [dict_append, List.mem_append, List.mem_singleton]
      by_cases same : key = pair.1
      · have absent : (key, value) ∉ pairs := by
          intro member
          exact separate key (List.mem_map_of_mem (f := Prod.fst) member) pair.1 (by simp) same
        subst same
        rw [AList.lookup_insert]
        constructor
        · intro found
          cases found
          exact .inr rfl
        · intro either
          rcases either with member | whole
          · exact absurd member absent
          · rw [← whole]
      · rw [AList.lookup_insert_ne same, ih distinct]
        constructor
        · exact .inl
        · intro either
          rcases either with member | whole
          · exact member
          · exact absurd (congrArg Prod.fst whole) same

def foundHeaders (headers : List (Bytes × Bytes)) : HttpHeaders :=
  dict (headers.map fun header => (lower header.1, header.2))

theorem httpSplit_wire (status : Bytes) (init : List (Bytes × Bytes)) (last : Bytes × Bytes)
    (payload : Bytes) (statusPlain : Plain status)
    (names : ∀ header ∈ init ++ [last], Plain header.1 ∧ colon ∉ header.1)
    (values : ∀ header ∈ init ++ [last], Plain header.2) :
    httpSplit (status ++ (crlf ++ (headerLines (init ++ [last]) ++ (crlf ++ payload)))) =
      some
        { rawHeader := status ++ (crlf ++ (headerLines init ++ headerText last))
          status
          headers := foundHeaders init
          payload } := by
  have plain : ∀ header ∈ init ++ [last], Plain (headerText header) :=
    fun header member => headerText_plain (names header member).1 (values header member)
  have notBlank : ¬ crlf <+: headerLines (init ++ [last]) ++ (crlf ++ payload) := by
    obtain ⟨first, others, same⟩ : ∃ first others, init ++ [last] = first :: others :=
      List.exists_cons_of_ne_nil (by simp)
    have firstPlain := plain first (by rw [same]; exact List.mem_cons_self)
    rw [same, headerLines, List.flatMap_cons, List.append_assoc, List.append_assoc]
    exact not_crlf_prefix _ _ (headerText_ne_nil first) firstPlain.1
  have outer : splitOnce (crlf ++ crlf)
      (status ++ (crlf ++ (headerLines (init ++ [last]) ++ (crlf ++ payload)))) =
      some (status ++ (crlf ++ (headerLines init ++ headerText last)), payload) := by
    rw [splitOnce_line status _ statusPlain.1 notBlank,
      splitOnce_headerLines init last payload plain]
    rfl
  have inner : splitOnce crlf (status ++ (crlf ++ (headerLines init ++ headerText last))) =
      some (status, headerLines init ++ headerText last) := by
    change splitOnce (carriageReturn :: [lineFeed]) _ = _
    rw [splitOnce_append carriageReturn _ _ _ statusPlain.1]
    have here := splitOnce_here crlf (headerLines init ++ headerText last) (by decide)
    exact (congrArg (Option.map _) here).trans (by simp)
  simp only [httpSplit, outer, inner, headerPairs_headerLines init last names values,
    foundHeaders]

end HttpHandler

namespace HttpMessage

open HttpHandler

section Lookups

variable (message : HttpMessage) {init : List (Bytes × Bytes)} {last : Bytes × Bytes}

theorem distinct_init (whole : message.headers = init ++ [last]) :
    ((init.map fun header => (lower header.1, header.2)).map Prod.fst).Nodup ∧
      ∀ header ∈ init, lower header.1 ≠ lower last.1 := by
  have distinct := message.distinct
  rw [whole, List.map_append, List.nodup_append] at distinct
  rcases distinct with ⟨distinct, -, separate⟩
  rw [List.map_map]
  refine ⟨distinct, ?_⟩
  intro header member
  exact separate _ (List.mem_map_of_mem (f := fun header => lower header.1) member) _ (by simp)

theorem lookup_of_mem (whole : message.headers = init ++ [last])
    {header : Bytes × Bytes} (member : header ∈ init) :
    (foundHeaders init).lookup (lower header.1) = some header.2 := by
  rw [foundHeaders, lookup_dict_iff _ (message.distinct_init whole).1]
  exact List.mem_map_of_mem (f := fun header => (lower header.1, header.2)) member

theorem lookup_of_absent (whole : message.headers = init ++ [last]) {key : Bytes}
    (absent : ∀ header ∈ init, lower header.1 ≠ key) :
    (foundHeaders init).lookup key = none := by
  cases found : (foundHeaders init).lookup key with
  | none => rfl
  | some value =>
      rw [foundHeaders, lookup_dict_iff _ (message.distinct_init whole).1, List.mem_map] at found
      rcases found with ⟨header, member, same⟩
      exact absurd (congrArg Prod.fst same) (absent header member)

end Lookups

end HttpMessage

namespace KeepAliveMessage

open HttpMessage HttpHandler

def LengthLast (message : KeepAliveMessage) : Prop :=
  ∃ init last, message.headers = init ++ [last] ∧ lower last.1 = ascii "content-length"

def stream (messages : List KeepAliveMessage) : Bytes :=
  messages.flatMap fun message => message.wire

section Extract

variable (message : KeepAliveMessage) {init : List (Bytes × Bytes)} {last : Bytes × Bytes}

private theorem mem_init (whole : message.headers = init ++ [last]) {header : Bytes × Bytes}
    (member : header ∈ message.headers) (other : lower header.1 ≠ lower last.1) :
    header ∈ init := by
  rw [whole, List.mem_append, List.mem_singleton] at member
  rcases member with inInit | same
  · exact inInit
  · rw [same] at other
    exact absurd rfl other

private theorem lookup_coding (whole : message.headers = init ++ [last]) :
    (foundHeaders init).lookup (ascii "transfer-encoding") = none ∧
      (foundHeaders init).lookup (ascii "content-encoding") = none := by
  have plain : ∀ header ∈ init, lower header.1 ≠ ascii "transfer-encoding" ∧
      lower header.1 ≠ ascii "content-encoding" := fun header member =>
    message.plainCoding header (by simp [whole, member])
  constructor
  · exact message.lookup_of_absent whole fun header member => (plain header member).1
  · exact message.lookup_of_absent whole fun header member => (plain header member).2

private theorem partPayload_of_lengthLast (whole : message.headers = init ++ [last])
    (isLast : lower last.1 = ascii "content-length") (payload : Bytes) :
    partPayload (foundHeaders init) payload = .ok [] := by
  have noLength : (foundHeaders init).lookup (ascii "content-length") = none :=
    message.lookup_of_absent whole fun header member =>
      isLast ▸ (message.distinct_init whole).2 header member
  have noCoding := (message.lookup_coding whole).1
  have notChunked : lower [] ≠ ascii "chunked" := by decide
  simp only [partPayload, HttpHandler.contentLength, noLength, noCoding, ne_eq, not_true_eq_false,
    if_false, Option.getD_none, notChunked]

private theorem partPayload_of_length (whole : message.headers = init ++ [last])
    (notLast : lower last.1 ≠ ascii "content-length") (more : Bytes) :
    partPayload (foundHeaders init) (message.body ++ more) = .ok message.body := by
  obtain ⟨header, member, isLength, value⟩ := message.contentLength
  have inInit := message.mem_init whole member (isLength ▸ Ne.symm notLast)
  have length := message.lookup_of_mem whole inInit
  rw [isLength] at length
  have noCoding := (message.lookup_coding whole).1
  have notChunked : lower [] ≠ ascii "chunked" := by decide
  by_cases empty : message.body.length = 0
  · have nothing := List.length_eq_zero_iff.mp empty
    simp only [partPayload, HttpHandler.contentLength, length, value, noCoding, Option.getD_none,
      notChunked, nothing]
    rfl
  · have some : (message.body.length : Int) ≠ 0 := by omega
    simp only [partPayload, HttpHandler.contentLength, length, value, ne_eq, some,
      not_false_eq_true, if_true, sliceTo_natCast, List.take_left']

theorem extractHttpParts_wire (gunzip : Bytes → Except PyException Bytes) (more : Bytes) :
    ∃ headers rest, extractHttpParts gunzip (message.wire ++ more) =
        .ok (some ({ status := message.status, headers, payload := message.body ++ more }, rest)) ∧
      (message.LengthLast → rest = message.body ++ more) ∧
      (¬ message.LengthLast → rest = more ∨ rest = []) := by
  obtain ⟨init, last, whole⟩ : ∃ init last, message.headers = init ++ [last] := by
    obtain ⟨header, member, -⟩ := message.contentLength
    exact (List.eq_nil_or_concat' message.headers).resolve_left (List.ne_nil_of_mem member)
  have shape : message.wire ++ more =
      message.status ++ (crlf ++ (headerLines (init ++ [last]) ++
        (crlf ++ (message.body ++ more)))) := by
    simp [wire, whole]
  have split := httpSplit_wire message.status init last (message.body ++ more)
    message.statusPlain (whole ▸ message.namePlain) (whole ▸ message.valuePlain)
  have noEncoding := (message.lookup_coding whole).2
  by_cases isLast : lower last.1 = ascii "content-length"
  · -- The connection line is then among the lines that are found.
    obtain ⟨header, member, isConnection, keepAlive⟩ := message.connection
    have different : ascii "connection" ≠ ascii "content-length" := by decide
    have inInit : header ∈ init :=
      message.mem_init whole member (by rw [isConnection, isLast]; exact different)
    have connection := message.lookup_of_mem whole inInit
    rw [isConnection] at connection
    refine ⟨foundHeaders init, message.body ++ more, ?_, fun _ => rfl, fun notLast => ?_⟩
    · simp only [extractHttpParts, shape, split,
        message.partPayload_of_lengthLast whole isLast, decompress, noEncoding, connection,
        Option.getD_some, keepAlive, if_true, List.length_nil, List.drop_zero]
    · exact absurd ⟨init, last, whole, isLast⟩ notLast
  · have notLast : ¬ message.LengthLast := by
      intro given
      rcases given with ⟨init', last', whole', isLast'⟩
      rw [whole] at whole'
      obtain ⟨-, same⟩ := List.append_inj' whole' rfl
      cases same
      exact isLast isLast'
    have part := message.partPayload_of_length whole isLast more
    by_cases keep : lower (((foundHeaders init).lookup (ascii "connection")).getD []) =
        ascii "keep-alive"
    · refine ⟨foundHeaders init, more, ?_, fun lengthLast => absurd lengthLast notLast,
        fun _ => .inl rfl⟩
      simp only [extractHttpParts, shape, split, part, decompress, noEncoding, keep, if_true,
        List.drop_left]
    · refine ⟨foundHeaders init, [], ?_, fun lengthLast => absurd lengthLast notLast,
        fun _ => .inr rfl⟩
      simp only [extractHttpParts, shape, split, part, decompress, noEncoding, keep, if_false]

end Extract

/-! ### The records of a direction -/

def opposite : Direction → Direction
  | .s => .c
  | .c => .s

section Records

variable (gunzip : Bytes → Except PyException Bytes) (direction : Direction)

def recordsOf (records : List HttpRecord) : List (Bytes × Bytes) :=
  (records.filter fun record => record.direction = direction).map fun record =>
    (record.status, record.payload)

/-- `process` on a connection with `data` in this direction and `other` in the
other one. -/
def processDirection (data other : Bytes) : Except PyException (List HttpRecord) :=
  match direction with
  | .s => process gunzip data other
  | .c => process gunzip other data

/-- `process` returns, with one record for each message: its status line, and
its body as payload. -/
def FramedRight (other : Bytes) (messages : List KeepAliveMessage) : Prop :=
  ∃ records, processDirection gunzip direction (stream messages) other = .ok records ∧
    recordsOf direction records = messages.map fun message => (message.status, message.body)

/-- Taking the data apart ends without an exception that nothing catches. -/
def Quiet (data : Bytes) : Prop := (go gunzip direction (data.length + 1) data).2 = none

/-- The data is not taken for a message, or is given up with `ParsingException`. -/
def NoMessage (data : Bytes) : Prop :=
  extractHttpParts gunzip data = .ok none ∨
    ∃ message, extractHttpParts gunzip data = .error (.parsingException message)

private theorem direction_of_mem_go (fuel : Nat) (data : Bytes) :
    ∀ record ∈ (go gunzip direction fuel data).1, record.direction = direction := by
  induction fuel generalizing data with
  | zero => simp [go]
  | succ fuel ih =>
      cases extracted : extractHttpParts gunzip data with
      | error exception => cases exception <;> simp [go, extracted]
      | ok response =>
          cases response with
          | none => simp [go, extracted]
          | some parts =>
              simp only [go, extracted, List.mem_cons, forall_eq_or_imp, true_and]
              exact ih parts.2

private theorem recordsOf_eq_map (records : List HttpRecord)
    (all : ∀ record ∈ records, record.direction = direction) :
    recordsOf direction records = records.map fun record => (record.status, record.payload) := by
  rw [recordsOf, List.filter_eq_self.mpr fun record member => decide_eq_true (all record member)]

private theorem recordsOf_opposite (records : List HttpRecord)
    (all : ∀ record ∈ records, record.direction = opposite direction) :
    recordsOf direction records = [] := by
  rw [recordsOf, List.filter_eq_nil_iff.mpr, List.map_nil]
  intro record member here
  rw [all record member, decide_eq_true_eq] at here
  cases direction <;> cases here

private theorem recordsOf_append (left right : List HttpRecord) :
    recordsOf direction (left ++ right) =
      recordsOf direction left ++ recordsOf direction right := by
  simp only [recordsOf, List.filter_append, List.map_append]

private theorem processDirection_iff (data other : Bytes) (expected : List (Bytes × Bytes)) :
    (∃ records, processDirection gunzip direction data other = .ok records ∧
      recordsOf direction records = expected) ↔
    Quiet gunzip (opposite direction) other ∧
      (go gunzip direction (data.length + 1) data).2 = none ∧
      (go gunzip direction (data.length + 1) data).1.map
        (fun record => (record.status, record.payload)) = expected := by
  have mine := direction_of_mem_go gunzip direction (data.length + 1) data
  have theirs := direction_of_mem_go gunzip (opposite direction) (other.length + 1) other
  rw [← recordsOf_eq_map direction _ mine]
  unfold Quiet
  obtain ⟨⟨own, ownEnd⟩, ownAt⟩ :
      ∃ result, go gunzip direction (data.length + 1) data = result := ⟨_, rfl⟩
  obtain ⟨⟨foreign, foreignEnd⟩, foreignAt⟩ :
      ∃ result, go gunzip (opposite direction) (other.length + 1) other = result := ⟨_, rfl⟩
  rw [foreignAt] at theirs
  rw [ownAt, foreignAt]
  have none : recordsOf direction foreign = [] := recordsOf_opposite direction foreign theirs
  cases direction with
  | s =>
      simp only [opposite] at foreignAt
      cases ownEnd <;> cases foreignEnd <;>
        simp [processDirection, process, ownAt, foreignAt, recordsOf_append, none]
  | c =>
      simp only [opposite] at foreignAt
      cases ownEnd <;> cases foreignEnd <;>
        simp [processDirection, process, ownAt, foreignAt, recordsOf_append, none]

private theorem go_silent_iff (fuel : Nat) (data : Bytes) :
    (go gunzip direction (fuel + 1) data).2 = none ∧
        (go gunzip direction (fuel + 1) data).1 = [] ↔
      NoMessage gunzip data := by
  unfold NoMessage
  cases extracted : extractHttpParts gunzip data with
  | error exception => cases exception <;> simp [go, extracted]
  | ok response => cases response <;> simp [go, extracted]

private theorem wire_length_pos (message : KeepAliveMessage) : 0 < message.wire.length := by
  simp only [wire, List.length_append, crlf, List.length_cons]
  omega

private theorem go_stream_cons (message : KeepAliveMessage) (messages : List KeepAliveMessage) :
    ∃ headers rest fuel, go gunzip direction ((stream (message :: messages)).length + 1)
        (stream (message :: messages)) =
      ({ status := message.status, headers, payload := message.body ++ stream messages,
         direction } :: (go gunzip direction (fuel + 1) rest).1,
        (go gunzip direction (fuel + 1) rest).2) ∧
      (message.LengthLast → rest = message.body ++ stream messages) ∧
      (¬ message.LengthLast → rest = stream messages ∨ rest = []) := by
  obtain ⟨headers, rest, extracted, lengthLast, notLast⟩ :=
    message.extractHttpParts_wire gunzip (stream messages)
  have whole : stream (message :: messages) = message.wire ++ stream messages := by
    rw [stream, stream, List.flatMap_cons]
  obtain ⟨fuel, enough⟩ : ∃ fuel, (stream (message :: messages)).length = fuel + 1 := by
    have positive := wire_length_pos message
    apply Nat.exists_eq_succ_of_ne_zero
    rw [whole, List.length_append]
    omega
  refine ⟨headers, rest, fuel, ?_, lengthLast, notLast⟩
  rw [enough, whole]
  rw [← whole] at extracted
  simp only [go, whole ▸ extracted]

end Records

end KeepAliveMessage

/-- `process` frames the messages of a direction right exactly when there is
none, or a single one whose length line is not the last header line or whose
body is no message in turn; the other direction must not raise. -/
theorem framedRight_iff (gunzip : Bytes → Except PyException Bytes) (direction : Direction)
    (other : Bytes) (messages : List KeepAliveMessage) :
    KeepAliveMessage.FramedRight gunzip direction other messages ↔
      KeepAliveMessage.Quiet gunzip (KeepAliveMessage.opposite direction) other ∧
      (messages = [] ∨ ∃ message, messages = [message] ∧
        (message.LengthLast → KeepAliveMessage.NoMessage gunzip message.body)) := by
  rw [KeepAliveMessage.FramedRight, KeepAliveMessage.processDirection_iff]
  apply and_congr_right
  intro _
  cases messages with
  | nil =>
      have nothing : HttpHandler.go gunzip direction 1 [] = ([], none) := rfl
      simp [KeepAliveMessage.stream, nothing]
  | cons message messages =>
      obtain ⟨headers, rest, fuel, run, lengthLast, notLast⟩ :=
        KeepAliveMessage.go_stream_cons gunzip direction message messages
      have silent := KeepAliveMessage.go_silent_iff gunzip direction fuel rest
      rw [run]
      constructor
      · intro found
        rcases found with ⟨ended, same⟩
        simp only [List.map_cons, List.cons.injEq, Prod.mk.injEq, true_and,
          List.append_right_eq_self] at same
        rcases same with ⟨noMore, noRecords⟩
        cases messages with
        | cons next messages =>
            have sizes := congrArg List.length noMore
            have positive := KeepAliveMessage.wire_length_pos next
            simp only [KeepAliveMessage.stream, List.flatMap_cons, List.length_append,
              List.length_nil] at sizes
            omega
        | nil =>
            refine .inr ⟨message, rfl, fun isLast => ?_⟩
            have sameRest : rest = message.body := by
              rw [lengthLast isLast, noMore, List.append_nil]
            rw [← sameRest]
            exact silent.mp ⟨ended, List.map_eq_nil_iff.mp noRecords⟩
      · intro either
        rcases either with impossible | ⟨single, same, harmless⟩
        · cases impossible
        obtain ⟨rfl, rfl⟩ := List.cons.inj same
        have nothing : KeepAliveMessage.NoMessage gunzip rest := by
          by_cases isLast : message.LengthLast
          · rw [lengthLast isLast, KeepAliveMessage.stream, List.flatMap_nil, List.append_nil]
            exact harmless isLast
          · have empty : rest = [] := by
              rcases notLast isLast with rfl | rfl <;> rfl
            rw [empty]
            exact .inl rfl
        obtain ⟨ended, noRecords⟩ := silent.mpr nothing
        refine ⟨ended, ?_⟩
        simp [noRecords, KeepAliveMessage.stream]

def response (letter : Byte) : KeepAliveMessage :=
  { status := ascii "HTTP/1.1 200 OK"
    headers :=
      [(ascii "Content-Length", ascii "1"), (ascii "Connection", ascii "keep-alive"),
        (ascii "Server", ascii "x")]
    body := [letter]
    statusPlain := by decide
    namePlain := by decide
    valuePlain := by decide
    distinct := by decide
    contentLength := ⟨_, List.mem_cons_self, by decide, readInt_decimal 1⟩
    connection := ⟨_, List.mem_cons_of_mem _ List.mem_cons_self, by decide, by decide⟩
    plainCoding := by decide }

/-- Two responses on one connection: the first payload holds the second one. -/
theorem two_responses_misframed :
    ¬ KeepAliveMessage.FramedRight .ok .c [] [response 65, response 66] := by
  rw [KeepAliveMessage.FramedRight, KeepAliveMessage.processDirection_iff]
  intro found
  rcases found with ⟨-, -, same⟩
  obtain ⟨headers, rest, fuel, run, -, -⟩ :=
    KeepAliveMessage.go_stream_cons .ok .c (response 65) [response 66]
  rw [run] at same
  simp only [List.map_cons, List.cons.injEq, Prod.mk.injEq, true_and,
    List.append_right_eq_self] at same
  exact absurd (congrArg List.length same.1) (by decide)

end Packetpig
