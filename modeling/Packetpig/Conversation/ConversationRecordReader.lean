/-
ConversationRecordReader: one row for each line of JSON that tcp.py prints,
with the timestamps of the packets and the intervals between them.

Doubles are exact here: the arithmetic on timestamps is that of the rationals.
-/

import Packetpig.Dns.DNSConversationRecordReader

namespace Packetpig

open Text

structure ConversationRow where
  src : Option Bytes
  sport : Int
  dst : Option Bytes
  dport : Int
  endState : Option Bytes
  timestamps : List Int
  intervals : List Rat
deriving DecidableEq, Repr

namespace ConversationRecordReader

open DNSConversationRecordReader (deref)

/-- The local variable `first` and the two tuples of the loop. -/
structure Times where
  first : Rat
  timestamps : List Int
  intervals : List Rat

/-- The body of the loop over the timestamps. A `first` of 0 counts as not set. -/
def addTimestamp (times : Times) (curr : Rat) : Times :=
  { first := if times.first = 0 then curr else times.first
    timestamps := times.timestamps ++ [(Json.float curr).getLongValue]
    intervals :=
      if times.first = 0 then times.intervals else times.intervals ++ [curr - times.first] }

def readTimes (timestampNodes : List Json) : Times :=
  (timestampNodes.map Json.getDoubleValue).foldl addTimestamp ⟨0, [], []⟩

def readRecord (obj : Json) : Except JavaException (Keyed ConversationRow) := do
  let src ← deref (obj.get (ascii "src"))
  let sport ← deref (obj.get (ascii "sport"))
  let dst ← deref (obj.get (ascii "dst"))
  let dport ← deref (obj.get (ascii "dport"))
  let endState ← deref (obj.get (ascii "end_state"))
  let timestamps ← deref (obj.get (ascii "timestamps"))
  let times := readTimes timestamps.getElements
  let ts ← deref (obj.get (ascii "ts"))
  .ok
    { key := ts.getLongValue
      tuple :=
        { src := src.getTextValue
          sport := sport.getIntValue
          dst := dst.getTextValue
          dport := dport.getIntValue
          endState := endState.getTextValue
          timestamps := times.timestamps
          intervals := times.intervals } }

def nextKeyValue (json : JsonLines) (reader : Bytes) :
    Pull Bytes (Keyed ConversationRow) Ending :=
  match JavaText.readLine reader with
  | none => .stop .returnedFalse reader
  | some (line, rest) =>
      match json.readValue line with
      | none => .stop (.threw .ioException) rest
      | some obj =>
          match readRecord obj with
          | .error exception => .stop (.threw exception) rest
          | .ok keyed => .item keyed rest

end ConversationRecordReader

end Packetpig
