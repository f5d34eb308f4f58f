/-
The object that a tuple stands for by its schema, and that it is what the calls
of the store function write.
-/

import Packetpig.Storage.JsonStorage

namespace Packetpig.JsonStorage

open Text Pig JsonWriter

variable (texts : Texts)

/-- The values of a tuple; anything else has none. -/
def valuesOf : Value → List Value
  | .tuple values => values
  | _ => []

def mapEntry (entry : Bytes × Value) : Option (Bytes × Json) :=
  match entry.2 with
  | .null => none
  | value => some (entry.1, .text (texts.toText value))

/-- The entry for a field of a plain type; a field of another type has none. -/
def plainEntries (name : Bytes) (type : DataType) (d : Value) : Option (List (Bytes × Json)) :=
  match type, d with
  | .integer, .integer value => some [(name, .int value)]
  | .long, .long value => some [(name, .int value)]
  | .float, .float value => some [(name, .float (texts.ofFloat value))]
  | .double, .double value => some [(name, .float (texts.ofDouble value))]
  | .bytearray, d => some [(name, .text (texts.toText d))]
  | .chararray, .chararray text => some [(name, .text text)]
  | .map, .map entries =>
      (entries.mapM (mapEntry texts)).map fun entries => [(name, .object entries)]
  | .other _, _ => some []
  | _, _ => none

mutual

/-- The entries of an object for a field; `none` where the value does not fit. -/
def fieldEntries : FieldSchema → Value → Option (List (Bytes × Json))
  | .mk name _ _ _, .null => some [(name, .null)]
  | .mk name .tuple hasSchema fields, d =>
      if hasSchema then
        (fieldsEntries fields (valuesOf d)).map fun entries => [(name, .object entries)]
      else none
  | .mk name .bag hasSchema fields, d =>
      if hasSchema then (bagElements fields d).map fun elements => [(name, .array elements)]
      else none
  | .mk name type _ _, d => plainEntries texts name type d

/-- Values behind the last field are not looked at. -/
def fieldsEntries : List FieldSchema → List Value → Option (List (Bytes × Json))
  | [], _ => some []
  | _ :: _, [] => none
  | field :: fields, value :: values =>
      (fieldEntries field value).bind fun entries =>
        (fieldsEntries fields values).map (entries ++ ·)

def bagElements : List FieldSchema → Value → Option (List Json)
  | [.mk _ .tuple true fields], .bag tuples =>
      tuples.mapM fun t => Json.object <$> fieldsEntries fields t
  | _, _ => none

end

/-- The object of a whole tuple. -/
def tupleObject (schema : List FieldSchema) (t : List Value) : Option Json :=
  Json.object <$> fieldsEntries texts schema t

/-! ### What is written -/

def Writes (outer : JsonWriter) (before : List (Bytes × Json))
    (entries : Option (List (Bytes × Json))) (result : Except StorageException JsonWriter) : Prop :=
  match entries with
  | some entries => result = .ok (inObject (before ++ entries) outer)
  | none => ∃ exception, result = .error exception

variable {texts} {outer : JsonWriter} {before : List (Bytes × Json)}

theorem Writes.value (name : Bytes) (value : Json) :
    Writes outer before (some [(name, value)])
      (writeValueField name value (inObject before outer)) := rfl

theorem Writes.append {first rest : Option (List (Bytes × Json))}
    {result : Except StorageException JsonWriter}
    {next : JsonWriter → Except StorageException JsonWriter} (here : Writes outer before first result)
    (later : ∀ entries, first = some entries →
      Writes outer (before ++ entries) rest (next (inObject (before ++ entries) outer))) :
    Writes outer before (first.bind fun entries => rest.map (entries ++ ·)) (result >>= next) := by
  cases first with
  | none =>
      obtain ⟨exception, failed⟩ := here
      exact ⟨exception, by rw [failed]; rfl⟩
  | some entries =>
      have behind := later entries rfl
      rw [show result = _ from here]
      cases rest with
      | none => exact behind
      | some more =>
          change next _ = _
          rw [show next _ = _ from behind, List.append_assoc]

theorem Writes.nested {entries : Option (List (Bytes × Json))}
    {result : Except StorageException JsonWriter} (name : Bytes)
    (inside : Writes (atName before name outer) [] entries result) :
    Writes outer before (entries.map fun entries => [(name, .object entries)])
      (result >>= writeEndObject) := by
  cases entries with
  | none =>
      obtain ⟨exception, failed⟩ := inside
      exact ⟨exception, by rw [failed]; rfl⟩
  | some entries =>
      rw [show result = _ from inside]
      rfl

private theorem writeEntries_writes (entries : List (Bytes × Value))
    (before : List (Bytes × Json)) :
    Writes outer before (entries.mapM (mapEntry texts))
      (writeEntries texts entries (inObject before outer)) := by
  induction entries generalizing before with
  | nil =>
      rw [List.mapM_nil]
      change Except.ok _ = _
      rw [List.append_nil]
  | cons entry entries ih =>
      rcases entry with ⟨key, value⟩
      by_cases missing : value = .null
      · subst missing
        exact ⟨_, rfl⟩
      · have isEntry : mapEntry texts (key, value) = some (key, .text (texts.toText value)) := by
          cases value with
          | null => exact absurd rfl missing
          | _ => rfl
        have written : writeEntries texts ((key, value) :: entries) (inObject before outer) =
            (writeValueField key (.text (texts.toText value)) (inObject before outer) >>=
              writeEntries texts entries) := by
          cases value with
          | null => exact absurd rfl missing
          | _ => rfl
        have both := Writes.append (.value key (.text (texts.toText value)))
          fun entries _ => ih (before ++ entries)
        rw [List.mapM_cons, isEntry, written]
        cases rest : entries.mapM (mapEntry texts) with
        | none =>
            rw [rest] at both
            exact both
        | some more =>
            rw [rest] at both
            exact both

private theorem writePlain_writes (name : Bytes) (type : DataType) (d : Value) :
    Writes outer before (plainEntries texts name type d)
      (writePlain texts name type d (inObject before outer)) := by
  cases type with
  | integer =>
      cases d with
      | integer value => exact .value name _
      | _ => exact ⟨_, rfl⟩
  | long =>
      cases d with
      | long value => exact .value name _
      | _ => exact ⟨_, rfl⟩
  | float =>
      cases d with
      | float value => exact .value name _
      | _ => exact ⟨_, rfl⟩
  | double =>
      cases d with
      | double value => exact .value name _
      | _ => exact ⟨_, rfl⟩
  | bytearray => exact .value name _
  | chararray =>
      cases d with
      | chararray text => exact .value name _
      | _ => exact ⟨_, rfl⟩
  | map =>
      cases d with
      | map entries => exact .nested name (writeEntries_writes entries [])
      | _ => exact ⟨_, rfl⟩
  | tuple => exact ⟨_, rfl⟩
  | bag => exact ⟨_, rfl⟩
  | other code =>
      change Except.ok _ = _
      rw [List.append_nil]

private theorem get_eq (d : Value) (j : Nat) :
    (∃ value, get d j = .ok value ∧
        (valuesOf d).drop j = value :: (valuesOf d).drop (j + 1)) ∨
      (∃ exception, get d j = .error exception) ∧ (valuesOf d).drop j = [] := by
  cases d with
  | tuple values =>
      cases found : values[j]? with
      | none =>
          right
          refine ⟨⟨.indexOutOfBoundsException, ?_⟩, ?_⟩
          · simp only [get, found]
          · exact List.drop_eq_nil_of_le (List.getElem?_eq_none_iff.mp found)
      | some value =>
          left
          obtain ⟨inside, same⟩ := List.getElem?_eq_some_iff.mp found
          refine ⟨value, ?_, ?_⟩
          · simp only [get, found]
          · rw [valuesOf, List.drop_eq_getElem_cons inside, same]
  | _ => exact .inr ⟨⟨.classCastException, rfl⟩, List.drop_nil⟩

/-! The cases of a field by its type, for a value that is there. -/

private theorem writeField_tuple {d : Value} (there : d ≠ .null) (name : Bytes) (hasSchema : Bool)
    (fields : List FieldSchema) :
    writeField texts (.mk name .tuple hasSchema fields) d (inObject before outer) =
      if hasSchema then
        writeFields texts fields 0 d (inObject [] (atName before name outer)) >>= writeEndObject
      else .error (noSchema name) := by
  cases d with
  | null => exact absurd rfl there
  | _ =>
      cases hasSchema with
      | false => rfl
      | true => rfl

private theorem writeField_bag {d : Value} (there : d ≠ .null) (name : Bytes) (hasSchema : Bool)
    (fields : List FieldSchema) :
    writeField texts (.mk name .bag hasSchema fields) d (inObject before outer) =
      if hasSchema then writeBag texts name fields d (inArray [] (atName before name outer))
      else .error (noSchema name) := by
  cases d with
  | null => exact absurd rfl there
  | _ =>
      cases hasSchema with
      | false => rfl
      | true => rfl

theorem fieldEntries_tuple {d : Value} (there : d ≠ .null) (name : Bytes)
    (hasSchema : Bool) (fields : List FieldSchema) :
    fieldEntries texts (.mk name .tuple hasSchema fields) d =
      if hasSchema then
        (fieldsEntries texts fields (valuesOf d)).map fun entries => [(name, .object entries)]
      else none := by
  cases d with
  | null => exact absurd rfl there
  | _ => rw [fieldEntries]; simp

theorem fieldEntries_bag {d : Value} (there : d ≠ .null) (name : Bytes) (hasSchema : Bool)
    (fields : List FieldSchema) :
    fieldEntries texts (.mk name .bag hasSchema fields) d =
      if hasSchema then
        (bagElements texts fields d).map fun elements => [(name, .array elements)]
      else none := by
  cases d with
  | null => exact absurd rfl there
  | _ => rw [fieldEntries]; simp

theorem field_plain {d : Value} (there : d ≠ .null) {type : DataType}
    (plain : type ≠ .tuple ∧ type ≠ .bag) (name : Bytes) (hasSchema : Bool)
    (fields : List FieldSchema) (json : JsonWriter) :
    writeField texts (.mk name type hasSchema fields) d json = writePlain texts name type d json ∧
      fieldEntries texts (.mk name type hasSchema fields) d = plainEntries texts name type d := by
  constructor
  · rw [writeField]
    · exact plain.1
    · exact plain.2
    · exact there
  · rw [fieldEntries]
    · exact plain.1
    · exact plain.2
    · exact there

private def writeTuple (texts : Texts) (fields : List FieldSchema) (json : JsonWriter)
    (t : List Value) : Except StorageException JsonWriter := do
  let json ← writeStartObject json
  writeEndObject (← writeFields texts fields 0 (.tuple t) json)

private theorem writeTuples {fields : List FieldSchema} (outer : JsonWriter)
    (writes : ∀ t outer, Writes outer [] (fieldsEntries texts fields t)
      (writeFields texts fields 0 (.tuple t) (inObject [] outer)))
    (tuples : List (List Value)) (elements : List Json) :
    match tuples.mapM fun t => Json.object <$> fieldsEntries texts fields t with
    | some objects =>
        tuples.foldlM (writeTuple texts fields) (inArray elements outer) =
          .ok (inArray (elements ++ objects) outer)
    | none => ∃ exception,
        tuples.foldlM (writeTuple texts fields) (inArray elements outer) = .error exception := by
  induction tuples generalizing elements with
  | nil =>
      rw [List.mapM_nil]
      change Except.ok _ = _
      rw [List.append_nil]
  | cons t tuples ih =>
      have here := writes t (inArray elements outer)
      have started : writeTuple texts fields (inArray elements outer) t =
          (writeFields texts fields 0 (.tuple t) (inObject [] (inArray elements outer)) >>=
            writeEndObject) := rfl
      rw [List.mapM_cons, List.foldlM_cons, started]
      cases entries : fieldsEntries texts fields t with
      | none =>
          rw [entries] at here
          obtain ⟨exception, failed⟩ := here
          exact ⟨exception, by rw [failed]; rfl⟩
      | some entries' =>
          rw [entries] at here
          rw [show writeFields _ _ _ _ _ = _ from here]
          have later := ih (elements ++ [.object entries'])
          cases rest : tuples.mapM fun t => Json.object <$> fieldsEntries texts fields t with
          | none =>
              rw [rest] at later
              exact later
          | some objects =>
              rw [rest] at later
              have stored : tuples.foldlM (writeTuple texts fields)
                    (inArray (elements ++ [.object entries']) outer) =
                  .ok (inArray (elements ++ ([.object entries'] ++ objects)) outer) := by
                rw [← List.append_assoc]
                exact later
              exact stored

variable (texts)

mutual

theorem writeField_writes : ∀ (field : FieldSchema) (d : Value) (outer : JsonWriter)
    (before : List (Bytes × Json)), Writes outer before (fieldEntries texts field d)
      (writeField texts field d (inObject before outer))
  | .mk name type hasSchema fields, d, outer, before => by
      by_cases missing : d = .null
      · subst missing
        rw [fieldEntries, writeField]
        exact .value name .null
      · by_cases isTuple : type = .tuple
        · subst isTuple
          rw [fieldEntries_tuple missing, writeField_tuple missing]
          cases hasSchema with
          | false => exact ⟨_, rfl⟩
          | true => exact .nested name (writeFields_writes fields 0 d (atName before name outer) [])
        · by_cases isBag : type = .bag
          · subst isBag
            rw [fieldEntries_bag missing, writeField_bag missing]
            cases hasSchema with
            | false => exact ⟨_, rfl⟩
            | true => exact writeBag_writes fields name d outer before
          · obtain ⟨writes, entries⟩ := field_plain missing ⟨isTuple, isBag⟩ name hasSchema fields
              (inObject before outer)
            rw [writes, entries]
            exact writePlain_writes name type d

theorem writeFields_writes : ∀ (fields : List FieldSchema) (j : Nat) (d : Value)
    (outer : JsonWriter) (before : List (Bytes × Json)),
    Writes outer before (fieldsEntries texts fields ((valuesOf d).drop j))
      (writeFields texts fields j d (inObject before outer))
  | [], j, d, outer, before => by
      rw [fieldsEntries, writeFields]
      change Except.ok _ = _
      rw [List.append_nil]
  | field :: fields, j, d, outer, before => by
      rw [writeFields]
      rcases get_eq d j with ⟨value, found, values⟩ | ⟨⟨exception, failed⟩, noValue⟩
      · have first := writeField_writes field value outer before
        have both := first.append fun entries _ =>
          writeFields_writes fields (j + 1) d outer (before ++ entries)
        rw [found, values, fieldsEntries]
        exact both
      · rw [failed, noValue, fieldsEntries]
        exact ⟨exception, rfl⟩

theorem writeBag_writes : ∀ (fields : List FieldSchema) (name : Bytes) (d : Value)
    (outer : JsonWriter) (before : List (Bytes × Json)),
    Writes outer before ((bagElements texts fields d).map fun elements => [(name, .array elements)])
      (writeBag texts name fields d (inArray [] (atName before name outer)))
  | [], name, d, outer, before => by
      rw [bagElements]
      · exact ⟨_, rfl⟩
      · simp
  | .mk _ type hasSchema fields :: _ :: _, name, d, outer, before => by
      rw [bagElements, writeBag]
      · exact ⟨_, rfl⟩
      · simp
      · simp
      · simp
      · simp
  | [.mk inside type hasSchema fields], name, d, outer, before => by
      cases type with
      | tuple =>
          cases hasSchema with
          | false => exact ⟨_, rfl⟩
          | true =>
              cases d with
              | bag tuples =>
                  have loop := writeTuples (atName before name outer)
                    (fun t outer => writeFields_writes fields 0 (.tuple t) outer []) tuples []
                  have closed : writeBag texts name [.mk inside .tuple true fields] (.bag tuples)
                        (inArray [] (atName before name outer)) =
                      (tuples.foldlM (writeTuple texts fields)
                        (inArray [] (atName before name outer)) >>= writeEndArray) := rfl
                  rw [bagElements, closed]
                  cases objects : tuples.mapM fun t =>
                      Json.object <$> fieldsEntries texts fields t with
                  | none =>
                      rw [objects] at loop
                      obtain ⟨exception, failed⟩ := loop
                      exact ⟨exception, by rw [failed]; rfl⟩
                  | some objects' =>
                      rw [objects] at loop
                      rw [show tuples.foldlM _ _ = _ from loop]
                      rfl
              | _ => exact ⟨_, rfl⟩
      | _ => exact ⟨_, rfl⟩

end

/-! ### Lines -/

def tupleLine (texts : Texts) (lines : JsonLines) (schema : List FieldSchema) (t : List Value) :
    Option Bytes :=
  (tupleObject texts schema t).bind lines.dumps

variable (lines : JsonLines) (schema : List FieldSchema)

theorem putNext_tupleLine (t : List Value) :
    match tupleLine texts lines schema t with
    | some line => putNext texts lines schema t = .ok line
    | none => ∃ exception, putNext texts lines schema t = .error exception := by
  have written := writeFields_writes texts schema 0 (.tuple t) .empty []
  have called : putNext texts lines schema t = (do
      let json ← writeEndObject (← writeFields texts schema 0 (.tuple t) (inObject [] .empty))
      match json.written.bind lines.dumps with
      | some line => return line
      | none => throw .jsonGenerationException) := rfl
  rw [valuesOf, List.drop_zero] at written
  rw [called, tupleLine, tupleObject]
  cases entries : fieldsEntries texts schema t with
  | none =>
      rw [entries] at written
      obtain ⟨exception, failed⟩ := written
      exact ⟨exception, by rw [failed]; rfl⟩
  | some entries' =>
      rw [entries] at written
      rw [show writeFields _ _ _ _ _ = _ from written]
      change match (lines.dumps (.object entries')) with
        | some line => (match lines.dumps (.object entries') with
            | some line => Except.ok line
            | none => Except.error StorageException.jsonGenerationException) = .ok line
        | none => ∃ exception, (match lines.dumps (.object entries') with
            | some line => Except.ok line
            | none => Except.error StorageException.jsonGenerationException) = .error exception
      cases lines.dumps (.object entries') with
      | none => exact ⟨_, rfl⟩
      | some line => rfl

/-- The file is the lines of the tuples up to the first that has none, and the
task has failed if there is such a tuple. -/
theorem store_lines (tuples : List (List Value)) (file : Bytes) :
    ∃ written : List Bytes,
      (store texts lines schema tuples file).1 = file ++ written.flatMap (· ++ [lineFeed]) ∧
      written.map some =
        (tuples.map (tupleLine texts lines schema)).takeWhile Option.isSome ∧
      ((store texts lines schema tuples file).2 = none ↔
        ∀ t ∈ tuples, (tupleLine texts lines schema t).isSome) := by
  induction tuples generalizing file with
  | nil => exact ⟨[], (List.append_nil file).symm, rfl, by simp [store]⟩
  | cons t tuples ih =>
      have here := putNext_tupleLine texts lines schema t
      cases line : tupleLine texts lines schema t with
      | none =>
          rw [line] at here
          obtain ⟨exception, failed⟩ := here
          refine ⟨[], ?_, ?_, ?_⟩
          · simp [store, failed]
          · simp [line]
          · simp [store, failed, line]
      | some line' =>
          rw [line] at here
          have stored : store texts lines schema (t :: tuples) file =
              store texts lines schema tuples (file ++ line' ++ [lineFeed]) := by
            rw [store, here]
          obtain ⟨written, isFile, isPrefix, succeeds⟩ := ih (file ++ line' ++ [lineFeed])
          rw [stored]
          refine ⟨line' :: written, ?_, ?_, ?_⟩
          · rw [isFile, List.flatMap_cons]
            simp only [List.append_assoc]
          · simp [line, isPrefix]
          · rw [succeeds, List.forall_mem_cons, line]
            simp

theorem tupleLine_eq_some {t : List Value} {line : Bytes}
    (isLine : tupleLine texts lines schema t = some line) :
    lineFeed ∉ line ∧ lines.readValue line = tupleObject texts schema t := by
  obtain ⟨value, isObject, printed⟩ := Option.bind_eq_some_iff.mp isLine
  exact ⟨(lines.plain value line printed).1,
    (lines.readValue_dumps value line printed).trans isObject.symm⟩

theorem store_succeeds_iff (tuples : List (List Value)) :
    (store texts lines schema tuples []).2 = none ↔
      ∀ t ∈ tuples, (tupleLine texts lines schema t).isSome := by
  obtain ⟨_, -, -, succeeds⟩ := store_lines texts lines schema tuples []
  exact succeeds

theorem read_store (tuples : List (List Value)) :
    (fileLines (store texts lines schema tuples []).1).map lines.readValue =
      (tuples.takeWhile fun t => (tupleLine texts lines schema t).isSome).map
        (tupleObject texts schema) := by
  obtain ⟨written, isFile, isPrefix, -⟩ := store_lines texts lines schema tuples []
  rw [List.takeWhile_map] at isPrefix
  have each : ∀ line ∈ written, lineFeed ∉ line := by
    intro line member
    have isLine : some line ∈ written.map some := List.mem_map_of_mem member
    rw [isPrefix] at isLine
    obtain ⟨t, -, ofTuple⟩ := List.mem_map.mp isLine
    exact (tupleLine_eq_some texts lines schema ofTuple).1
  rw [isFile, List.nil_append, fileLines_ended written each]
  -- The lines and the tuples correspond one to one.
  have read : ∀ (stored : List (List Value)) (written : List Bytes),
      written.map some = stored.map (tupleLine texts lines schema) →
        written.map lines.readValue = stored.map (tupleObject texts schema) := by
    intro stored
    induction stored with
    | nil =>
        intro written empty
        rw [List.map_eq_nil_iff.mp empty]
        rfl
    | cons t stored ih =>
        intro written same
        cases written with
        | nil => cases same
        | cons line written =>
            obtain ⟨isLine, later⟩ := List.cons_eq_cons.mp same
            rw [List.map_cons, List.map_cons, ih written later,
              (tupleLine_eq_some texts lines schema isLine.symm).2]
  exact read _ written isPrefix

/-- Reading the file line by line gives the objects of the tuples up to the first
that cannot be stored. -/
theorem store_reads_back (texts : Texts) (lines : JsonLines) (schema : List FieldSchema)
    (tuples : List (List Value)) :
    (fileLines (store texts lines schema tuples []).1).map lines.readValue =
        (tuples.takeWhile fun t => (tupleLine texts lines schema t).isSome).map
          (tupleObject texts schema) ∧
      ((store texts lines schema tuples []).2 = none ↔
        ∀ t ∈ tuples, (tupleLine texts lines schema t).isSome) :=
  ⟨read_store texts lines schema tuples, store_succeeds_iff texts lines schema tuples⟩

end Packetpig.JsonStorage
