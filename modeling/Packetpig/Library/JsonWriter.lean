/-
A writer of JSON that is called value by value: it keeps the arrays and objects
that are still open, and refuses a call that does not fit the innermost of them.
-/

import Packetpig.Library.Json

namespace Packetpig

open Text

/-- An array or an object that is still open; an object may wait for the value of
a name. -/
inductive JsonFrame where
  | array (elements : List Json)
  | object (fields : List (Bytes × Json)) (name : Option Bytes)

structure JsonWriter where
  frames : List JsonFrame
  roots : List Json

namespace JsonWriter

def empty : JsonWriter := { frames := [], roots := [] }

def writeValue (value : Json) (json : JsonWriter) : Option JsonWriter :=
  match json.frames with
  | [] => some { json with roots := json.roots ++ [value] }
  | .array elements :: outer => some { json with frames := .array (elements ++ [value]) :: outer }
  | .object fields (some name) :: outer =>
      some { json with frames := .object (fields ++ [(name, value)]) none :: outer }
  | .object _ none :: _ => none

def writeFieldName (name : Bytes) (json : JsonWriter) : Option JsonWriter :=
  match json.frames with
  | .object fields none :: outer => some { json with frames := .object fields (some name) :: outer }
  | _ => none

def openFrame (frame : JsonFrame) (json : JsonWriter) : Option JsonWriter :=
  match json.frames with
  | .object _ none :: _ => none
  | frames => some { json with frames := frame :: frames }

def writeStartObject : JsonWriter → Option JsonWriter := openFrame (.object [] none)
def writeStartArray : JsonWriter → Option JsonWriter := openFrame (.array [])

def writeEndObject (json : JsonWriter) : Option JsonWriter :=
  match json.frames with
  | .object fields none :: outer => writeValue (.object fields) { json with frames := outer }
  | _ => none

def writeEndArray (json : JsonWriter) : Option JsonWriter :=
  match json.frames with
  | .array elements :: outer => writeValue (.array elements) { json with frames := outer }
  | _ => none

/-- What has been written, when nothing is open any more. -/
def written (json : JsonWriter) : Option Json :=
  match json.frames, json.roots with
  | [], [value] => some value
  | _, _ => none

def inObject (fields : List (Bytes × Json)) (outer : JsonWriter) : JsonWriter :=
  { outer with frames := .object fields none :: outer.frames }

def inArray (elements : List Json) (outer : JsonWriter) : JsonWriter :=
  { outer with frames := .array elements :: outer.frames }

def atName (fields : List (Bytes × Json)) (name : Bytes) (outer : JsonWriter) : JsonWriter :=
  { outer with frames := .object fields (some name) :: outer.frames }

section InObject

variable (fields : List (Bytes × Json)) (name : Bytes) (elements : List Json) (outer : JsonWriter)

@[simp] theorem writeFieldName_inObject :
    (inObject fields outer).writeFieldName name = some (atName fields name outer) := rfl

@[simp] theorem writeValue_atName (value : Json) :
    (atName fields name outer).writeValue value =
      some (inObject (fields ++ [(name, value)]) outer) := rfl

@[simp] theorem writeStartObject_atName :
    (atName fields name outer).writeStartObject = some (inObject [] (atName fields name outer)) :=
  rfl

@[simp] theorem writeStartArray_atName :
    (atName fields name outer).writeStartArray = some (inArray [] (atName fields name outer)) :=
  rfl

@[simp] theorem writeStartObject_inArray :
    (inArray elements outer).writeStartObject = some (inObject [] (inArray elements outer)) := rfl

@[simp] theorem writeStartObject_empty :
    empty.writeStartObject = some (inObject [] empty) := rfl

@[simp] theorem writeEndObject_inObject :
    (inObject fields outer).writeEndObject = outer.writeValue (.object fields) := rfl

@[simp] theorem writeEndArray_inArray :
    (inArray elements outer).writeEndArray = outer.writeValue (.array elements) := rfl

@[simp] theorem writeValue_inArray (value : Json) :
    (inArray elements outer).writeValue value = some (inArray (elements ++ [value]) outer) := rfl

@[simp] theorem written_root (value : Json) : (empty.writeValue value).bind written = some value :=
  rfl

end InObject

end JsonWriter

end Packetpig
