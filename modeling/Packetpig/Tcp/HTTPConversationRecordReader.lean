/-
HTTPConversationRecordReader: reads the tab separated lines that tcp.py prints
in the mode `http_headers`, one tuple a line.

`Double.parseDouble` is a parameter that gives the number cut off to a long.
-/

import Packetpig.Library.JavaText
import Packetpig.Pcap.PcapInputStream

namespace Packetpig

open Text

inductive PigField where
  | text (value : Bytes)
  | tuple (values : List Bytes)
deriving DecidableEq, Repr

abbrev PigTuple := List PigField

namespace HTTPConversationRecordReader

/-- `field == null || field.isEmpty()`. -/
def allFields (field : Option Bytes) : Bool := field.getD [] = []

/-- The loop over the columns: the one behind the first that equals the field.
The condition `i > 0` always holds. -/
def scan (field : Bytes) : List Bytes → Option Bytes
  | column :: next :: columns =>
      if column = field then some next else scan field (next :: columns)
  | _ => none

/-- What a line does to the key and the tuple; no tuple where the field is not
found. -/
def readParts (parseDouble : Bytes → Option Int) (field : Option Bytes) (parts : List Bytes) :
    Except JavaException (Int × Option PigTuple) :=
  match parts with
  | [] => .error .arrayIndexOutOfBoundsException
  | ts :: columns =>
      match parseDouble ts with
      | none => .error .numberFormatException
      | some key =>
          match columns with
          | src :: sport :: dst :: dport :: columns =>
              let addresses : PigTuple := [.text src, .text sport, .text dst, .text dport]
              if allFields field then
                match columns with
                | [] => .error .arrayIndexOutOfBoundsException
                | status :: columns =>
                    .ok (key, some (addresses ++ [.text status, .tuple (columns.drop 1)]))
              else
                .ok (key, (scan (field.getD []) columns).map fun value =>
                  addresses ++ [.text value])
          | _ => .error .arrayIndexOutOfBoundsException

/-- `while ((line = reader.readLine()) != null)`; every line shortens the text. -/
def readLoop (parseDouble : Bytes → Option Int) (field : Option Bytes) :
    Nat → Bytes → Pull Bytes (Keyed PigTuple) Ending
  | 0, text => .stop .returnedFalse text
  | fuel + 1, text =>
      match JavaText.readLine text with
      | none => .stop .returnedFalse text
      | some (line, rest) =>
          match readParts parseDouble field (JavaText.split tab line) with
          | .error exception => .stop (.threw exception) rest
          | .ok (key, some tuple) => .item ⟨key, tuple⟩ rest
          | .ok (_, none) => readLoop parseDouble field fuel rest

def nextKeyValue (parseDouble : Bytes → Option Int) (field : Option Bytes) (text : Bytes) :
    Pull Bytes (Keyed PigTuple) Ending :=
  readLoop parseDouble field (text.length + 1) text

theorem readLoop_fuel (parseDouble : Bytes → Option Int) (field : Option Bytes) (fuel : Nat) :
    ∀ (fuel' : Nat) (text : Bytes), text.length < fuel → text.length < fuel' →
      readLoop parseDouble field fuel text = readLoop parseDouble field fuel' text := by
  induction fuel with
  | zero =>
      intro fuel' text enough
      omega
  | succ fuel ih =>
      intro fuel' text enough enough'
      cases fuel' with
      | zero => omega
      | succ fuel' =>
          by_cases empty : text = []
          · subst empty
            rfl
          · have shorter := JavaText.takeLine_shorter text empty
            simp only [readLoop, JavaText.readLine, empty, if_false]
            rw [ih fuel' _ (by omega) (by omega)]

end HTTPConversationRecordReader

end Packetpig
