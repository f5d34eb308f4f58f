/-
JsonStorage: a store function that writes each tuple as an object on a line of
its own, its fields named by the schema.

Jackson's generator is the writer of Library.JsonWriter, and the text of a value
that is written completely is a parameter. So are the texts of Java objects and
the decimal numbers that stand for binary ones.
-/

import Packetpig.Library.JsonWriter
import Packetpig.Library.Fallible

namespace Packetpig

open Text

namespace Pig

inductive DataType where
  | integer
  | long
  | float
  | double
  | bytearray
  | chararray
  | map
  | tuple
  | bag
  | other (code : Nat)
deriving DecidableEq, Repr

/-- `ResourceFieldSchema`; `fields` is empty where `getSchema()` is `null`. -/
inductive FieldSchema where
  | mk (name : Bytes) (type : DataType) (hasSchema : Bool) (fields : List FieldSchema)

inductive Value where
  | null
  | integer (value : Int)
  | long (value : Int)
  | float (value : Rat)
  | double (value : Rat)
  | bytearray (bytes : Bytes)
  | chararray (text : Bytes)
  | boolean (value : Bool)
  | map (entries : List (Bytes × Value))
  | tuple (values : List Value)
  | bag (tuples : List (List Value))

def FieldSchema.name : FieldSchema → Bytes
  | mk name _ _ _ => name

def FieldSchema.type : FieldSchema → DataType
  | mk _ type _ _ => type

end Pig

inductive StorageException where
  | ioException (message : Bytes)
  | jsonGenerationException
  | classCastException
  | indexOutOfBoundsException
  | nullPointerException
deriving DecidableEq, Repr

namespace JsonStorage

open Pig

/-- `toString()` of an object, and the decimal numbers for binary ones. -/
structure Texts where
  toText : Value → Bytes
  ofFloat : Rat → Rat
  ofDouble : Rat → Rat

def generate (call : JsonWriter → Option JsonWriter) (json : JsonWriter) :
    Except StorageException JsonWriter :=
  match call json with
  | some json => .ok json
  | none => .error .jsonGenerationException

def writeFieldName (name : Bytes) : JsonWriter → Except StorageException JsonWriter :=
  generate (JsonWriter.writeFieldName name)

def writeStartObject : JsonWriter → Except StorageException JsonWriter :=
  generate JsonWriter.writeStartObject

def writeEndObject : JsonWriter → Except StorageException JsonWriter :=
  generate JsonWriter.writeEndObject

def writeStartArray : JsonWriter → Except StorageException JsonWriter :=
  generate JsonWriter.writeStartArray

def writeEndArray : JsonWriter → Except StorageException JsonWriter :=
  generate JsonWriter.writeEndArray

/-- `writeNullField`, `writeNumberField` and `writeStringField`. -/
def writeValueField (name : Bytes) (value : Json) (json : JsonWriter) :
    Except StorageException JsonWriter := do
  generate (JsonWriter.writeValue value) (← writeFieldName name json)

def noSchema (name : Bytes) : StorageException :=
  .ioException (ascii "Schemas must be fully specified to use " ++
    ascii "this storage function.  No schema found for field " ++ name)

/-- `((Tuple) d).get(j)`. -/
def get (d : Value) (j : Nat) : Except StorageException Value :=
  match d with
  | .tuple values =>
      match values[j]? with
      | some value => .ok value
      | none => .error .indexOutOfBoundsException
  | _ => .error .classCastException

section Write

variable (texts : Texts)

def writeEntries : List (Bytes × Value) → JsonWriter → Except StorageException JsonWriter
  | [], json => .ok json
  | (_, .null) :: _, _ => .error .nullPointerException
  | (key, value) :: entries, json => do
      writeEntries entries (← writeValueField key (.text (texts.toText value)) json)

/-- The value of a field whose type has no schema of its own. -/
def writePlain (name : Bytes) (type : DataType) (d : Value) (json : JsonWriter) :
    Except StorageException JsonWriter :=
  match type, d with
  | .integer, .integer value => writeValueField name (.int value) json
  | .long, .long value => writeValueField name (.int value) json
  | .float, .float value => writeValueField name (.float (texts.ofFloat value)) json
  | .double, .double value => writeValueField name (.float (texts.ofDouble value)) json
  | .bytearray, d => writeValueField name (.text (texts.toText d)) json
  | .chararray, .chararray text => writeValueField name (.text text) json
  | .map, d => do
      let json ← writeFieldName name json
      let json ← writeStartObject json
      match d with
      | .map entries => writeEndObject (← writeEntries texts entries json)
      | _ => throw .classCastException
  | .other _, _ => .ok json
  | _, _ => .error .classCastException

mutual

def writeField : FieldSchema → Value → JsonWriter → Except StorageException JsonWriter
  | .mk name _ _ _, .null, json => writeValueField name .null json
  | .mk name .tuple hasSchema fields, d, json => do
      let json ← writeFieldName name json
      let json ← writeStartObject json
      if hasSchema then writeEndObject (← writeFields fields 0 d json)
      else throw (noSchema name)
  | .mk name .bag hasSchema fields, d, json => do
      let json ← writeFieldName name json
      let json ← writeStartArray json
      if hasSchema then writeBag name fields d json
      else throw (noSchema name)
  | .mk name type _ _, d, json => writePlain texts name type d json

def writeFields : List FieldSchema → Nat → Value → JsonWriter →
    Except StorageException JsonWriter
  | [], _, _, json => .ok json
  | field :: fields, j, d, json => do
      writeFields fields (j + 1) d (← writeField field (← get d j) json)

def writeBag (name : Bytes) : List FieldSchema → Value → JsonWriter →
    Except StorageException JsonWriter
  | [.mk _ .tuple true fields], .bag tuples, json => do
      let json ← tuples.foldlM (fun json t => do
        let json ← writeStartObject json
        writeEndObject (← writeFields fields 0 (.tuple t) json)) json
      writeEndArray json
  | [.mk _ .tuple true _], _, _ => .error .classCastException
  | [.mk _ .tuple false _], _, _ => .error (noSchema name)
  | _, _, _ => .error (.ioException (ascii "Found a bag without a tuple inside!"))

end

/-- The line for a tuple; nothing is handed to Hadoop before it is complete. -/
def putNext (lines : JsonLines) (schema : List FieldSchema) (t : List Value) :
    Except StorageException Bytes := do
  let json ← writeStartObject JsonWriter.empty
  let json ← writeEndObject (← writeFields texts schema 0 (.tuple t) json)
  match json.written.bind lines.dumps with
  | some line => return line
  | none => throw .jsonGenerationException

/-- The file after a task has stored some tuples, and the exception that has
ended it. -/
def store (lines : JsonLines) (schema : List FieldSchema) :
    List (List Value) → Bytes → Bytes × Option StorageException
  | [], file => (file, none)
  | t :: tuples, file =>
      match putNext texts lines schema t with
      | .ok line => store lines schema tuples (file ++ line ++ [lineFeed])
      | .error exception => (file, some exception)

end Write

end JsonStorage

end Packetpig
