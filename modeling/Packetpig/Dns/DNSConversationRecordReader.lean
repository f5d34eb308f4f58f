/-
DNSConversationRecordReader: reads the lines of dns_parser.py and queues the
rows of a line until they have been handed out.
-/

import Packetpig.Library.JavaText
import Packetpig.Library.Json
import Packetpig.Pcap.PcapInputStream

namespace Packetpig

open Text

/-- A string column may be `null`. -/
structure DnsConversationRow where
  id : Int
  mode : Option Bytes
  qname : Option Bytes
  ipAddress : Option Bytes
  ttl : Int
deriving DecidableEq, Repr

structure DNSConversationRecordReader where
  reader : Bytes
  tupleQueue : List DnsConversationRow
  key : Int

namespace DNSConversationRecordReader

/-- A method call on what may be `null`. -/
def deref (node : Option Json) : Except JavaException Json :=
  match node with
  | some node => .ok node
  | none => .error .nullPointerException

def initializeReader (output : Bytes) : DNSConversationRecordReader :=
  { reader := output, tupleQueue := [], key := 0 }

def getIpAddress (n : Json) : Option Bytes :=
  match n.get (ascii "qrdata") with
  | none => none
  | some qrdata =>
      match qrdata.get (ascii "IPAddress") with
      | none => none
      | some address => address.getTextValue

def questionTuple (currentId : Int) (mode : Bytes) (n : Json) :
    Except JavaException DnsConversationRow := do
  let qname ← deref (n.get (ascii "qname"))
  return { id := currentId, mode, qname := qname.getTextValue, ipAddress := none, ttl := 0 }

def answerTuple (currentId : Int) (mode : Bytes) (n : Json) :
    Except JavaException DnsConversationRow := do
  let qname ← deref (n.get (ascii "qname"))
  let qttl ← deref (n.get (ascii "qttl"))
  return { id := currentId, mode, qname := qname.getTextValue, ipAddress := getIpAddress n,
           ttl := qttl.getLongValue }

/-- The loop over the elements; what was added before an exception stays. -/
def addTuples (tuple : Json → Except JavaException DnsConversationRow) :
    List Json → List DnsConversationRow →
      Except JavaException Unit × List DnsConversationRow
  | [], tupleQueue => (.ok (), tupleQueue)
  | n :: elements, tupleQueue =>
      match tuple n with
      | .error exception => (.error exception, tupleQueue)
      | .ok t => addTuples tuple elements (tupleQueue ++ [t])

/-- The part of `processNextLine` behind `key = ...`. -/
def queueTuples (obj : Json) (tupleQueue : List DnsConversationRow) :
    Except JavaException Unit × List DnsConversationRow :=
  match obj.get (ascii "id"), obj.get (ascii "mode") with
  | some currentId, some mode =>
      let currentId := currentId.getIntValue
      match mode.getTextValue with
      | none => (.error .nullPointerException, tupleQueue)
      | some mode =>
          if mode = ascii "query" then
            match obj.get (ascii "questions") with
            | none => (.error .nullPointerException, tupleQueue)
            | some questions =>
                addTuples (questionTuple currentId mode) questions.getElements tupleQueue
          else if mode = ascii "response" then
            match obj.get (ascii "answers") with
            | none => (.error .nullPointerException, tupleQueue)
            | some answers =>
                addTuples (answerTuple currentId mode) answers.getElements tupleQueue
          else (.ok (), tupleQueue)
  | _, _ => (.error .nullPointerException, tupleQueue)

def processNextLine (json : JsonLines) (state : DNSConversationRecordReader) :
    Except JavaException Bool × DNSConversationRecordReader :=
  match JavaText.readLine state.reader with
  | none => (.ok false, state)
  | some (line, reader) =>
      match json.readValue line with
      | none => (.error .ioException, { state with reader })
      | some obj =>
          match obj.get (ascii "ts") with
          | none => (.error .nullPointerException, { state with reader })
          | some ts =>
              let key := ts.getLongValue
              match queueTuples obj state.tupleQueue with
              | (.ok (), tupleQueue) => (.ok true, { reader, tupleQueue, key })
              | (.error exception, tupleQueue) => (.error exception, { reader, tupleQueue, key })

/-- `while (true)` of `nextKeyValue`; every line shortens the text. -/
def readLoop (json : JsonLines) :
    Nat → DNSConversationRecordReader →
      Pull DNSConversationRecordReader (Keyed DnsConversationRow) Ending
  | 0, state => .stop .returnedFalse state
  | fuel + 1, state =>
      match processNextLine json state with
      | (.error exception, state) => .stop (.threw exception) state
      | (.ok false, state) => .stop .returnedFalse state
      | (.ok true, state) =>
          match state.tupleQueue with
          | tuple :: tupleQueue => .item ⟨state.key, tuple⟩ { state with tupleQueue }
          | [] => readLoop json fuel state

def nextKeyValue (json : JsonLines) (state : DNSConversationRecordReader) :
    Pull DNSConversationRecordReader (Keyed DnsConversationRow) Ending :=
  match state.tupleQueue with
  | tuple :: tupleQueue => .item ⟨state.key, tuple⟩ { state with tupleQueue }
  | [] => readLoop json (state.reader.length + 1) state

theorem processNextLine_shorter (json : JsonLines) {state after : DNSConversationRecordReader}
    (processed : processNextLine json state = (.ok true, after)) :
    after.reader.length < state.reader.length := by
  by_cases empty : state.reader = []
  · simp [processNextLine, JavaText.readLine, empty] at processed
  · have shorter := JavaText.takeLine_shorter state.reader empty
    simp only [processNextLine, JavaText.readLine, empty, if_false] at processed
    split at processed
    · simp at processed
    · split at processed
      · simp at processed
      · split at processed
        · cases processed
          exact shorter
        · simp at processed

theorem readLoop_fuel (json : JsonLines) (fuel : Nat) :
    ∀ (fuel' : Nat) (state : DNSConversationRecordReader), state.reader.length < fuel →
      state.reader.length < fuel' → readLoop json fuel state = readLoop json fuel' state := by
  induction fuel with
  | zero =>
      intro fuel' state enough
      omega
  | succ fuel ih =>
      intro fuel' state enough enough'
      cases fuel' with
      | zero => omega
      | succ fuel' =>
          rcases processed : processNextLine json state with ⟨_ | _ | _, after⟩
          · simp only [readLoop, processed]
          · simp only [readLoop, processed]
          · have shorter := processNextLine_shorter json processed
            simp only [readLoop, processed]
            cases after.tupleQueue with
            | cons tuple tupleQueue => rfl
            | nil => exact ih fuel' after (by omega) (by omega)

theorem nextKeyValue_line (json : JsonLines) {state after : DNSConversationRecordReader}
    (empty : state.tupleQueue = []) (processed : processNextLine json state = (.ok true, after)) :
    nextKeyValue json state = nextKeyValue json after := by
  have shorter := processNextLine_shorter json processed
  have start : nextKeyValue json state = readLoop json (state.reader.length + 1) state := by
    simp only [nextKeyValue, empty]
  rw [start, readLoop, processed]
  cases queue : after.tupleQueue with
  | cons tuple tupleQueue => simp only [nextKeyValue, queue]
  | nil =>
      simp only [nextKeyValue, queue]
      exact readLoop_fuel json _ _ after (by omega) (by omega)

end DNSConversationRecordReader

end Packetpig
