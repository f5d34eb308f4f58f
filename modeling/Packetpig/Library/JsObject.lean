/-
Objects of JavaScript as plain containers: properties that are read through a
chain of prototypes, arrays with their length, and the objects that every plain
object and every array inherits from.

Only what fills containers is here: `o[name]`, `o[name] = []` and `o.push(v)`.
-/

import Packetpig.Library.Text
import Mathlib.Logic.Function.Basic

namespace Packetpig.Js

open Text

inductive Exception where
  | typeError
deriving DecidableEq, Repr

/-- `host` stands for numbers and dates that are only passed on, `record` for an
object literal that nobody assigns to. -/
inductive Value (ν : Type) where
  | undefined
  | null
  | number (value : Nat)
  | host (value : ν)
  | object (ref : Nat)
  | record (fields : List (Bytes × Value ν))

/-- A data property, the accessor `__proto__`, or an accessor that throws. -/
inductive Property (ν : Type) where
  | value (value : Value ν) (writable : Bool)
  | prototype
  | throws

/-- The prototypes of an object from the nearest on, its own properties, and the
length if it is an array. -/
structure Object (ν : Type) where
  chain : List Nat
  own : Bytes → Option (Property ν)
  length : Option Nat

structure Heap (ν : Type) where
  size : Nat
  object : Nat → Object ν

variable {ν : Type}

def Value.truthy : Value ν → Bool
  | .undefined => false
  | .null => false
  | .number value => value ≠ 0
  | .host _ => true
  | .object _ => true
  | .record _ => true

def Property.Truthy : Property ν → Prop
  | .value content _ => content.truthy = true
  | .prototype => True
  | .throws => False

def arrayIndex (name : Bytes) : Option Nat :=
  let index := Nat.ofDigits 10 (name.reverse.map digitValue)
  if decimal index = name ∧ index < 2 ^ 32 - 1 then some index else none

namespace Object

def ownProperty (object : Object ν) (name : Bytes) : Option (Property ν) :=
  if name = ascii "length" then
    match object.length with
    | some length => some (.value (.number length) true)
    | none => object.own name
  else object.own name

def write (object : Object ν) (name : Bytes) (value : Value ν) : Object ν :=
  { object with own := Function.update object.own name (some (.value value true)) }

/-- `object[name] = []`, with the reference of the new array. As a length an
empty array counts as 0, which leaves no elements. -/
def putArray (object : Object ν) (name : Bytes) (array : Nat) : Object ν :=
  match object.length with
  | none => object.write name (.object array)
  | some length =>
      if name = ascii "length" then
        { object with
          own := fun name => if (arrayIndex name).isSome then none else object.own name
          length := some 0 }
      else
        match arrayIndex name with
        | some index =>
            { object.write name (.object array) with length := some (max length (index + 1)) }
        | none => object.write name (.object array)

/-- `array.push(value)` on an array of the given length. -/
def append (object : Object ν) (length : Nat) (value : Value ν) : Object ν :=
  { object.write (decimal length) value with length := some (length + 1) }

end Object

namespace Heap

def alloc (heap : Heap ν) (object : Object ν) : Heap ν :=
  { size := heap.size + 1, object := Function.update heap.object heap.size object }

def set (heap : Heap ν) (ref : Nat) (object : Object ν) : Heap ν :=
  { heap with object := Function.update heap.object ref object }

def find (heap : Heap ν) (name : Bytes) (chain : List Nat) : Option (Property ν) :=
  chain.findSome? fun ref => (heap.object ref).ownProperty name

def lookup (heap : Heap ν) (ref : Nat) (name : Bytes) : Option (Property ν) :=
  heap.find name (ref :: (heap.object ref).chain)

end Heap

/-- The state in which a script starts, with what is documented of the objects
that plain objects and arrays inherit from: their properties are functions and
the like, none of them is named as an element, and arrays have `push`. -/
structure Realm (ν : Type) where
  heap : Heap ν
  objectPrototype : Nat
  arrayPrototype : Nat
  numberPrototype : Nat
  pushFunction : Nat
  objectPrototype_lt : objectPrototype < heap.size
  arrayPrototype_lt : arrayPrototype < heap.size
  objectPrototype_chain : (heap.object objectPrototype).chain = []
  arrayPrototype_chain : (heap.object arrayPrototype).chain = [objectPrototype]
  objectPrototype_length : (heap.object objectPrototype).length = none
  objectPrototype_truthy : ∀ {name property},
    (heap.object objectPrototype).ownProperty name = some property →
      property.Truthy ∧ name ≠ ascii "length" ∧ ∀ index, name ≠ decimal index
  arrayPrototype_truthy : ∀ {name property}, name ≠ ascii "length" →
    (heap.object arrayPrototype).ownProperty name = some property →
      property.Truthy ∧ ∀ index, name ≠ decimal index
  arrayPrototype_push : ∃ writable, (heap.object arrayPrototype).ownProperty (ascii "push") =
    some (.value (.object pushFunction) writable)

namespace Realm

variable (realm : Realm ν)

/-- `{}`. -/
def plainObject : Object ν :=
  { chain := [realm.objectPrototype], own := fun _ => none, length := none }

/-- `[]`. -/
def emptyArray : Object ν :=
  { chain := [realm.arrayPrototype, realm.objectPrototype]
    own := fun _ => none
    length := some 0 }

/-- The names that `name in {}` is true of. -/
def PlainInherits (name : Bytes) : Prop :=
  (realm.heap.find name [realm.objectPrototype]).isSome = true

/-- The names besides `length` that `name in []` is true of. -/
def ArrayInherits (name : Bytes) : Prop :=
  (realm.heap.find name [realm.arrayPrototype, realm.objectPrototype]).isSome = true

def lookup (heap : Heap ν) (receiver : Value ν) (name : Bytes) : Option (Property ν) :=
  match receiver with
  | .object ref => heap.lookup ref name
  | .record fields =>
      match fields.lookup name with
      | some value => some (.value value true)
      | none => heap.find name [realm.objectPrototype]
  | _ => heap.find name [realm.numberPrototype, realm.objectPrototype]

def prototypeOf (heap : Heap ν) : Value ν → Value ν
  | .object ref =>
      match (heap.object ref).chain with
      | prototype :: _ => .object prototype
      | [] => .null
  | .record _ => .object realm.objectPrototype
  | _ => .object realm.numberPrototype

def HasProperties (heap : Heap ν) : Value ν → Prop
  | .undefined => False
  | .null => False
  | .object ref => ref < heap.size
  | _ => True

instance (heap : Heap ν) (value : Value ν) : Decidable (HasProperties heap value) :=
  match value with
  | .undefined => inferInstanceAs (Decidable False)
  | .null => inferInstanceAs (Decidable False)
  | .number _ => inferInstanceAs (Decidable True)
  | .host _ => inferInstanceAs (Decidable True)
  | .object ref => inferInstanceAs (Decidable (ref < heap.size))
  | .record _ => inferInstanceAs (Decidable True)

def read (heap : Heap ν) (receiver : Value ν) :
    Option (Property ν) → Except Exception (Value ν)
  | none => .ok .undefined
  | some (.value content _) => .ok content
  | some .prototype => .ok (realm.prototypeOf heap receiver)
  | some .throws => .error .typeError

/-- `receiver[name]`. -/
def get (heap : Heap ν) (receiver : Value ν) (name : Bytes) : Except Exception (Value ν) :=
  if HasProperties heap receiver then
    realm.read heap receiver (realm.lookup heap receiver name)
  else .error .typeError

/-- `receiver[name] = []` where the property has been read as something false. A
property that is not writable keeps its value, and `__proto__` is without one
only in `Object.prototype`, where it cannot be set. -/
def assignArray (heap : Heap ν) (receiver : Value ν) (name : Bytes) :
    Except Exception (Heap ν) :=
  let allocated := heap.alloc realm.emptyArray
  match realm.lookup heap receiver name, receiver with
  | some .prototype, _ => .error .typeError
  | some .throws, _ => .error .typeError
  | some (.value _ false), _ => .ok allocated
  | _, .object ref => .ok (allocated.set ref ((heap.object ref).putArray name heap.size))
  | _, _ => .ok allocated

/-- `if (!receiver[name]) receiver[name] = []`, with whether there was an
assignment. -/
def ensureArray (heap : Heap ν) (receiver : Value ν) (name : Bytes) :
    Except Exception (Bool × Heap ν) := do
  if (← realm.get heap receiver name).truthy then pure (false, heap)
  else pure (true, ← realm.assignArray heap receiver name)

/-- `receiver.push(value)`. Only arrays inherit the function. -/
def push (heap : Heap ν) (receiver value : Value ν) : Except Exception (Heap ν) := do
  match receiver, ← realm.get heap receiver (ascii "push") with
  | .object ref, .object method =>
      match (heap.object ref).length with
      | some length =>
          if method = realm.pushFunction then
            pure (heap.set ref ((heap.object ref).append length value))
          else .error .typeError
      | none => .error .typeError
  | _, _ => .error .typeError

end Realm

end Packetpig.Js
