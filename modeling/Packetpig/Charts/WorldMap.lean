/-
The page world.html: a map of the world, coloured by the number that the dropped
file has for the code of each country.

The page looks names and codes up in plain objects, which also have what every
object inherits.
-/

import Packetpig.Charts.Csv
import Packetpig.Charts.Scales
import Packetpig.Library.PlainObject

namespace Packetpig.WorldMap

open Text Csv Js

structure Page where
  rejigged : List (Bytes × Option Rat)
  max : Option Rat

/-- The colour of a country; a hue of `none` is no number. -/
inductive Fill where
  | unknown
  | hsl (hue : Option Rat)
deriving DecidableEq, Repr

/-- Of no column, `parseFloat` makes no number. -/
def entryOf (parseFloat : Bytes → Option Rat) (bits : List Bytes) : Bytes × Option Rat :=
  (bits.headD [], (bits[1]?).bind parseFloat)

/-- `(1. - val / max) * 90`. -/
def hue (val max : Rat) : Rat :=
  Scales.double (Scales.double (1 - Scales.double (val / max)) * 90)

section Source

variable {ν : Type} (realm : Realm ν)

/-- The loop over `codeToName`, the entries of countries.json. -/
def nameToCode (codeToName : List (Bytes × Bytes)) : Except Exception (List (Bytes × Bytes)) :=
  (codeToName.map Prod.swap).foldlM (PlainObject.put realm) []

def parse (parseFloat : Bytes → Option Rat) (data : Bytes) : Except Exception Page := do
  let rejigged ← ((parseRows data).map (entryOf parseFloat)).foldlM (PlainObject.put realm) []
  return { rejigged, max := Scales.max (rejigged.map Prod.snd) }

/-- The part of `col` behind `if (!code)`. What is inherited is no number. -/
def colOfCode (page : Page) (code : Bytes) : Except Exception Fill :=
  match PlainObject.find realm page.rejigged code with
  | .missing => .ok .unknown
  | .own none => .ok .unknown
  | .own (some val) =>
      if val = 0 then .ok .unknown else .ok (.hsl (some (hue val (page.max.getD 0))))
  | .inherited .throws => .error .typeError
  | .inherited _ => .ok (.hsl none)

/-- `col` for a country of this name. As a property name, what is inherited is
turned into a text. -/
def col (textOf : Property ν → Bytes) (nameToCode : List (Bytes × Bytes)) (page : Page)
    (name : Bytes) : Except Exception Fill :=
  match PlainObject.find realm nameToCode name with
  | .missing => .ok .unknown
  | .own code => if code = [] then .ok .unknown else colOfCode realm page code
  | .inherited .throws => .error .typeError
  | .inherited property => colOfCode realm page (textOf property)

end Source

end Packetpig.WorldMap
