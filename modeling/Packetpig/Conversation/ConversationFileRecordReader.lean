/-
ConversationFileRecordReader: starts tcp.py for the files in HTTP
conversations and reads the tab separated rows it prints, one tuple a line.

`Float` is a parameter that gives the number cut off to a long; so is what the
file system answers to a move.
-/

import Packetpig.Library.JavaText
import Packetpig.Pcap.PcapInputStream

namespace Packetpig

open Text

/-- The arguments of the constructor, which may be null, and the calls outside
the class. -/
structure FileReaderSettings where
  pathToTcp : Bytes
  fileDumpPath : Option Bytes
  filter : Option Bytes
  parseFloat : Bytes → Option Int
  moveFromLocalFile : Bytes → Bytes → Except JavaException Unit

structure FileReaderState where
  reader : Bytes
  moved : List (Bytes × Bytes)

namespace ConversationFileRecordReader

/-- `field != null && !field.isEmpty()`. -/
def given (field : Option Bytes) : Bool := field.getD [] ≠ []

def shouldDump (settings : FileReaderSettings) : Bool := given settings.fileDumpPath

/-- No blank stands between the filter and the option behind it. -/
def command (settings : FileReaderSettings) : Bytes :=
  settings.pathToTcp ++ ascii " -of tsv -om http_body -r /dev/stdin " ++
    (if given settings.filter then ascii "-i " ++ settings.filter.getD [] else []) ++
    (if shouldDump settings then ascii "-xf " else [])

/-- The words that `streamingProcess` gives to `ProcessBuilder`. -/
def commandLine (settings : FileReaderSettings) : List Bytes :=
  JavaText.split space (command settings)

def readBits (settings : FileReaderSettings) (bits : List Bytes) :
    Except JavaException (Keyed (List Bytes) × Option (Bytes × Bytes)) :=
  match bits with
  | [] => .error .arrayIndexOutOfBoundsException
  | ts :: columns =>
      match settings.parseFloat ts with
      | none => .error .numberFormatException
      | some key =>
          if columns.length < 11 then .error .arrayIndexOutOfBoundsException
          else if shouldDump settings then
            match columns.drop 11 with
            | tempFile :: inferredFilename :: _ =>
                let dst := columns[9]?.getD [] ++ inferredFilename ++ columns[6]?.getD []
                .ok (⟨key, columns.take 11 ++ [inferredFilename, dst]⟩, some (tempFile, dst))
            | _ => .error .arrayIndexOutOfBoundsException
          else .ok (⟨key, columns.take 11⟩, none)

def nextKeyValue (settings : FileReaderSettings) (state : FileReaderState) :
    Pull FileReaderState (Keyed (List Bytes)) Ending :=
  match JavaText.readLine state.reader with
  | none => .stop .returnedFalse state
  | some (line, rest) =>
      let state := { state with reader := rest }
      match readBits settings (JavaText.split tab line) with
      | .error exception => .stop (.threw exception) state
      | .ok (keyed, none) => .item keyed state
      | .ok (keyed, some (tempFile, dst)) =>
          match settings.moveFromLocalFile tempFile dst with
          | .error exception => .stop (.threw exception) state
          | .ok () => .item keyed { state with moved := state.moved ++ [(tempFile, dst)] }

def columnsIndexed (settings : FileReaderSettings) : Nat :=
  if shouldDump settings then 14 else 12

theorem readBits_isOk_iff (settings : FileReaderSettings) {ts : Bytes} {key : Int}
    (parsed : settings.parseFloat ts = some key) (columns : List Bytes) :
    (∃ keyed move, readBits settings (ts :: columns) = .ok (keyed, move) ∧ keyed.key = key) ↔
      columnsIndexed settings ≤ (ts :: columns).length := by
  unfold columnsIndexed
  simp only [readBits, parsed, List.length_cons]
  cases dump : shouldDump settings with
  | false =>
      simp only [Bool.false_eq_true, if_false]
      by_cases short : columns.length < 11
      · simp only [short, if_true, reduceCtorEq, false_and, exists_false, false_iff]
        omega
      · simp only [short, if_false, Except.ok.injEq, Prod.mk.injEq]
        constructor
        · intro _
          omega
        · intro _
          exact ⟨_, _, ⟨rfl, rfl⟩, rfl⟩
  | true =>
      simp only [if_true]
      by_cases short : columns.length < 11
      · simp only [short, if_true, reduceCtorEq, false_and, exists_false, false_iff]
        omega
      · simp only [short, if_false]
        have behind := List.length_drop (l := columns) (i := 11)
        rcases shape : columns.drop 11 with _ | ⟨tempFile, _ | ⟨inferredFilename, more⟩⟩
        · rw [shape, List.length_nil] at behind
          simp only [reduceCtorEq, false_and, exists_false, false_iff]
          omega
        · rw [shape, List.length_singleton] at behind
          simp only [reduceCtorEq, false_and, exists_false, false_iff]
          omega
        · rw [shape, List.length_cons, List.length_cons] at behind
          constructor
          · intro _
            omega
          · intro _
            exact ⟨_, _, rfl, rfl⟩

end ConversationFileRecordReader

end Packetpig
