/-
JSON values as trees, the accessors of a tree reader in the Java manner, where
a missing entry is `null` and an accessor of the wrong type gives a default,
and printing and reading of one value a line.
-/

import Packetpig.Library.Text
import Mathlib.Data.Rat.Defs

namespace Packetpig

open Text

inductive Json where
  | null
  | bool (value : Bool)
  | int (value : Int)
  | float (value : Rat)
  | text (value : Bytes)
  | array (elements : List Json)
  | object (fields : List (Bytes × Json))
deriving Repr

namespace Json

/-- `fields[key] = value`. -/
def set (key : Bytes) (value : Json) (fields : List (Bytes × Json)) : List (Bytes × Json) :=
  (key, value) :: fields.filter (·.1 ≠ key)

/-- `node.get(key)`, where `none` stands for `null`. -/
def get (key : Bytes) : Json → Option Json
  | object fields => fields.lookup key
  | _ => none

def getTextValue : Json → Option Bytes
  | text value => some value
  | _ => none

def truncate (value : Rat) : Int := value.num.tdiv value.den

def toSigned (bits : Nat) : Json → Int
  | int value => value.bmod (2 ^ bits)
  | float value => max (-2 ^ (bits - 1)) (min (2 ^ (bits - 1) - 1) (truncate value))
  | _ => 0

def getIntValue : Json → Int := toSigned 32
def getLongValue : Json → Int := toSigned 64

theorem getIntValue_natCast {value : Nat} (small : value < 2 ^ 31) :
    getIntValue (int value) = value := by
  simp only [getIntValue, toSigned]
  rw [Int.bmod_eq_of_le (by omega) (by omega)]

theorem getLongValue_natCast {value : Nat} (small : value < 2 ^ 63) :
    getLongValue (int value) = value := by
  simp only [getLongValue, toSigned]
  rw [Int.bmod_eq_of_le (by omega) (by omega)]

def getDoubleValue : Json → Rat
  | int value => value
  | float value => value
  | _ => 0

def getElements : Json → List Json
  | array elements => elements
  | object fields => fields.map Prod.snd
  | _ => []

end Json

/-- A printer and a reader for values on one line. Both may fail; where the
printer succeeds, its line is one line and reads back as the printed value. -/
structure JsonLines where
  dumps : Json → Option Bytes
  readValue : Bytes → Option Json
  plain : ∀ value line, dumps value = some line → lineFeed ∉ line ∧ carriageReturn ∉ line
  readValue_dumps : ∀ value line, dumps value = some line → readValue line = some value

open Classical in
noncomputable def JsonLines.single (value : Json) (line : Bytes)
    (plain : lineFeed ∉ line ∧ carriageReturn ∉ line) : JsonLines where
  dumps printed := if printed = value then some line else none
  readValue text := if text = line then some value else none
  plain := by
    intro printed text isLine
    obtain ⟨-, same⟩ := Option.ite_none_right_eq_some.mp isLine
    cases same
    exact plain
  readValue_dumps := by
    intro printed text isLine
    obtain ⟨isValue, same⟩ := Option.ite_none_right_eq_some.mp isLine
    cases isValue
    cases same
    exact if_pos rfl

theorem JsonLines.single_dumps (value : Json) (line : Bytes)
    (plain : lineFeed ∉ line ∧ carriageReturn ∉ line) :
    (JsonLines.single value line plain).dumps value = some line := if_pos rfl

end Packetpig
