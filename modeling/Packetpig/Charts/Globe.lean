/-
The page globe.html: the numbers that it gives the globe for the dropped file,
four for each position.
-/

import Packetpig.Charts.Csv
import Packetpig.Charts.Scales

namespace Packetpig.Globe

open Text Csv

/-- `parseFloat` of a column or of a piece of one; nothing makes no number. -/
def number (parseFloat : Bytes → Option Rat) (texts : List Bytes) (index : Nat) : Option Rat :=
  texts[index]?.bind parseFloat

/-- `d1range`. -/
def d1range (x : Rat) : Rat := Scales.linear 1 (Scales.double (31 / 10)) x

/-- `d2range`, which has no number for a `d2max` that is none. -/
def d2range (d2max : Option Rat) (x : Rat) : Option Rat :=
  d2max.map fun d2max => Scales.linear 0 d2max x

def pointOf (parseFloat : Bytes → Option Rat) (d2max : Option Rat) (d : List Bytes) :
    List (Option Rat) :=
  let latlon := (d.headD []).splitOn space
  [number parseFloat latlon 0, number parseFloat latlon 1,
    (number parseFloat d 2).bind (d2range d2max), (number parseFloat d 1).map d1range]

/-- What `parse` hands to `globe.addData`. -/
def points (parseFloat : Bytes → Option Rat) (data : Bytes) : List (Option Rat) :=
  let a := (parseRows data).filter fun d => d.headD [] ≠ []
  a.flatMap (pointOf parseFloat (Scales.max (a.map fun d => number parseFloat d 2)))

end Packetpig.Globe
