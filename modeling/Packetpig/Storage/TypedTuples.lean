/-
What a reader who knows the schema gets back: tuples of integers, texts, tuples
and bags are in the file as they are, for any of their texts and numbers.
-/

import Packetpig.Storage.StoredObjects

namespace Packetpig.JsonStorage

open Text Pig

def plainValue : DataType → Json → Value
  | .integer, .int value => .integer value
  | .long, .int value => .long value
  | .chararray, .text text => .chararray text
  | _, _ => .null

mutual

def fieldValue : FieldSchema → Json → Value
  | .mk _ .tuple _ fields, .object entries => .tuple (fieldValues fields entries)
  | .mk _ .bag _ fields, .array elements => .bag (bagTuples fields elements)
  | .mk _ type _ _, value => plainValue type value

def fieldValues : List FieldSchema → List (Bytes × Json) → List Value
  | field :: fields, entry :: entries => fieldValue field entry.2 :: fieldValues fields entries
  | _, _ => []

def bagTuples : List FieldSchema → List Json → List (List Value)
  | [.mk _ _ _ fields], elements => elements.map fun
      | .object entries => fieldValues fields entries
      | _ => []
  | _, _ => []

end

def tupleOf (schema : List FieldSchema) : Json → List Value
  | .object entries => fieldValues schema entries
  | _ => []

def FitsPlain : DataType → Value → Prop
  | .integer, .integer _ => True
  | .long, .long _ => True
  | .chararray, .chararray _ => True
  | _, .null => True
  | _, _ => False

mutual

/-- A value of the type of its field, which has a schema wherever it needs one. -/
def Fits : FieldSchema → Value → Prop
  | _, .null => True
  | .mk _ .tuple hasSchema fields, .tuple values => hasSchema = true ∧ FitsAll fields values
  | .mk _ .bag hasSchema fields, .bag tuples => hasSchema = true ∧ FitsBag fields tuples
  | .mk _ type _ _, value => FitsPlain type value

def FitsAll : List FieldSchema → List Value → Prop
  | [], [] => True
  | field :: fields, value :: values => Fits field value ∧ FitsAll fields values
  | _, _ => False

def FitsBag : List FieldSchema → List (List Value) → Prop
  | [.mk _ .tuple hasSchema fields], tuples => hasSchema = true ∧ ∀ t ∈ tuples, FitsAll fields t
  | _, _ => False

end

variable (texts : Texts)

private theorem plain_back {type : DataType} {value : Value} (name : Bytes)
    (fits : FitsPlain type value) (there : value ≠ .null) :
    ∃ json, plainEntries texts name type value = some [(name, json)] ∧
      (∀ (hasSchema : Bool) (fields : List FieldSchema),
        fieldValue (.mk name type hasSchema fields) json = value) := by
  cases type with
  | integer =>
      cases value with
      | integer number => exact ⟨.int number, rfl, fun _ _ => rfl⟩
      | null => exact absurd rfl there
      | _ => exact fits.elim
  | long =>
      cases value with
      | long number => exact ⟨.int number, rfl, fun _ _ => rfl⟩
      | null => exact absurd rfl there
      | _ => exact fits.elim
  | chararray =>
      cases value with
      | chararray text => exact ⟨.text text, rfl, fun _ _ => rfl⟩
      | null => exact absurd rfl there
      | _ => exact fits.elim
  | _ =>
      cases value with
      | null => exact absurd rfl there
      | _ => exact fits.elim

private theorem bag_back {fields : List FieldSchema} {tuples : List (List Value)}
    (each : ∀ t ∈ tuples, ∃ entries, fieldsEntries texts fields t = some entries ∧
      fieldValues fields entries = t) :
    ∃ elements, (tuples.mapM fun t => Json.object <$> fieldsEntries texts fields t) =
        some elements ∧
      (elements.map fun
        | .object entries => fieldValues fields entries
        | _ => []) = tuples := by
  induction tuples with
  | nil => exact ⟨[], rfl, rfl⟩
  | cons t tuples ih =>
      obtain ⟨here, later⟩ := List.forall_mem_cons.mp each
      obtain ⟨entries, isEntries, isTuple⟩ := here
      obtain ⟨elements, areElements, areTuples⟩ := ih later
      refine ⟨.object entries :: elements, ?_, ?_⟩
      · rw [List.mapM_cons, isEntries, areElements]
        rfl
      · rw [List.map_cons, areTuples]
        exact congrArg (· :: tuples) isTuple

private theorem fits_inv {name : Bytes} {type : DataType} {hasSchema : Bool}
    {fields : List FieldSchema} {value : Value} (fits : Fits (.mk name type hasSchema fields) value)
    (there : value ≠ .null) :
    (∃ values, type = .tuple ∧ hasSchema = true ∧ value = .tuple values ∧
        FitsAll fields values) ∨
      (∃ tuples inside within, type = .bag ∧ hasSchema = true ∧ value = .bag tuples ∧
        fields = [.mk inside .tuple true within] ∧ ∀ t ∈ tuples, FitsAll within t) ∨
      FitsPlain type value ∧ type ≠ .tuple ∧ type ≠ .bag := by
  by_cases isTuple : type = .tuple
  · subst isTuple
    left
    cases value with
    | null => exact absurd rfl there
    | tuple values =>
        rw [Fits] at fits
        exact ⟨values, rfl, fits.1, rfl, fits.2⟩
    | _ => exact fits.elim
  · by_cases isBag : type = .bag
    · subst isBag
      right
      left
      cases value with
      | null => exact absurd rfl there
      | bag tuples =>
          rw [Fits] at fits
          obtain ⟨whole, within⟩ := fits
          match fields, within with
          | [.mk inside .tuple known within], ⟨isKnown, each⟩ =>
              cases isKnown
              exact ⟨tuples, inside, within, rfl, whole, rfl, rfl, each⟩
      | _ => exact fits.elim
    · right
      right
      refine ⟨?_, isTuple, isBag⟩
      rw [Fits] at fits
      · exact fits
      · exact there
      · simp [isTuple]
      · simp [isBag]

mutual

theorem field_back : ∀ (field : FieldSchema) (value : Value), Fits field value →
    ∃ json, fieldEntries texts field value = some [(field.name, json)] ∧
      fieldValue field json = value
  | .mk name type hasSchema fields, value, fits => by
      by_cases missing : value = .null
      · subst missing
        refine ⟨.null, by rw [fieldEntries]; rfl, ?_⟩
        rw [fieldValue]
        · cases type <;> rfl
        · simp
        · simp
      · rcases fits_inv fits missing with ⟨values, rfl, rfl, rfl, fitsAll⟩ |
          ⟨tuples, inside, within, rfl, rfl, rfl, rfl, fitsAll⟩ | ⟨fitsPlain, noNested⟩
        · obtain ⟨entries, areEntries, areValues⟩ := fields_back fields values fitsAll
          refine ⟨.object entries, ?_, ?_⟩
          · rw [fieldEntries_tuple missing, if_pos rfl, valuesOf, areEntries]
            rfl
          · rw [fieldValue, areValues]
        · obtain ⟨elements, areElements, areTuples⟩ := bag_back texts
            fun t member => fields_back within t (fitsAll t member)
          refine ⟨.array elements, ?_, ?_⟩
          · rw [fieldEntries_bag missing, if_pos rfl, bagElements, areElements]
            rfl
          · rw [fieldValue, bagTuples, areTuples]
        · obtain ⟨json, isEntry, isValue⟩ := plain_back texts name fitsPlain missing
          refine ⟨json, ?_, isValue hasSchema fields⟩
          rw [(field_plain missing noNested name hasSchema fields .empty).2]
          exact isEntry

theorem fields_back : ∀ (fields : List FieldSchema) (values : List Value), FitsAll fields values →
    ∃ entries, fieldsEntries texts fields values = some entries ∧
      fieldValues fields entries = values
  | [], [], _ => ⟨[], rfl, rfl⟩
  | [], _ :: _, fits => fits.elim
  | _ :: _, [], fits => fits.elim
  | field :: fields, value :: values, fits => by
      obtain ⟨json, isEntry, isValue⟩ := field_back field value fits.1
      obtain ⟨entries, areEntries, areValues⟩ := fields_back fields values fits.2
      refine ⟨(field.name, json) :: entries, ?_, ?_⟩
      · rw [fieldsEntries, isEntry, areEntries]
        rfl
      · rw [fieldValues, isValue, areValues]

end

/-- Typed tuples are all stored, and the lines of the file give them back. -/
theorem store_round_trip (texts : Texts) (lines : JsonLines) (schema : List FieldSchema)
    (tuples : List (List Value)) (fits : ∀ t ∈ tuples, FitsAll schema t)
    (printed : ∀ t ∈ tuples, ∀ value, tupleObject texts schema t = some value →
      (lines.dumps value).isSome) :
    (store texts lines schema tuples []).2 = none ∧
      (fileLines (store texts lines schema tuples []).1).map
          (fun line => (lines.readValue line).map (tupleOf schema)) = tuples.map some := by
  have back : ∀ t ∈ tuples, ∃ value, tupleObject texts schema t = some value ∧
      tupleOf schema value = t := by
    intro t member
    obtain ⟨entries, areEntries, areValues⟩ := fields_back texts schema t (fits t member)
    refine ⟨.object entries, ?_, areValues⟩
    rw [tupleObject, areEntries]
    rfl
  have storable : ∀ t ∈ tuples, (tupleLine texts lines schema t).isSome := by
    intro t member
    obtain ⟨value, isObject, -⟩ := back t member
    rw [tupleLine, isObject]
    exact printed t member value isObject
  refine ⟨(store_succeeds_iff texts lines schema tuples).mpr storable, ?_⟩
  have read := read_store texts lines schema tuples
  rw [List.takeWhile_eq_self_iff.mpr storable] at read
  calc (fileLines (store texts lines schema tuples []).1).map
          (fun line => (lines.readValue line).map (tupleOf schema))
      = ((fileLines (store texts lines schema tuples []).1).map lines.readValue).map
          (Option.map (tupleOf schema)) := by rw [List.map_map]; rfl
    _ = tuples.map fun t => (tupleObject texts schema t).map (tupleOf schema) := by
        rw [read, List.map_map]
        rfl
    _ = tuples.map some := by
        apply List.map_congr_left
        intro t member
        obtain ⟨value, isObject, isTuple⟩ := back t member
        rw [isObject, Option.map_some, isTuple]

private def sampleSchema : List FieldSchema :=
  [.mk (ascii "port") .integer false [],
    .mk (ascii "names") .bag true [.mk (ascii "t") .tuple true
      [.mk (ascii "name") .chararray false []]]]

private def sampleTuple : List Value :=
  [.integer 53, .bag [[.chararray (ascii "a")], [.null]]]

private def sampleObject : Json :=
  .object [(ascii "port", .int 53), (ascii "names", .array
    [.object [(ascii "name", .text (ascii "a"))], .object [(ascii "name", .null)]])]

private def sampleTexts : Texts where
  toText _ := []
  ofFloat := id
  ofDouble := id

private theorem sample_is_object :
    tupleObject sampleTexts sampleSchema sampleTuple = some sampleObject := by rfl

theorem store_sample :
    ∃ lines : JsonLines, (store sampleTexts lines sampleSchema [sampleTuple] []).2 = none ∧
      (fileLines (store sampleTexts lines sampleSchema [sampleTuple] []).1).map
          (fun line => (lines.readValue line).map (tupleOf sampleSchema)) = [some sampleTuple] :=
  ⟨.single sampleObject
      (ascii "\x7b\"port\":53,\"names\":[\x7b\"name\":\"a\"\x7d,\x7b\"name\":null\x7d]\x7d") (by decide),
    store_round_trip sampleTexts _ sampleSchema [sampleTuple]
      (by
        intro t member
        rw [List.mem_singleton.mp member]
        refine ⟨trivial, ⟨rfl, rfl, ?_⟩, trivial⟩
        intro inner within
        rcases List.mem_cons.mp within with rfl | last
        · exact ⟨trivial, trivial⟩
        · rw [List.mem_singleton.mp last]
          exact ⟨trivial, trivial⟩)
      (by
        intro t member value isObject
        rw [List.mem_singleton.mp member, sample_is_object] at isObject
        cases isObject
        rw [JsonLines.single_dumps]
        rfl)⟩

end Packetpig.JsonStorage
