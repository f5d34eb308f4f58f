/-
The alerts that snort writes in its fast format, and how the date formatter
reads their timestamps.
-/

import Packetpig.Detection.SnortRecordReader
import Packetpig.Packet.PacketRecordReader

namespace Packetpig

open Text

inductive SnortAddress where
  | ipv4 (addr : Word)
  | ipv6 (text : Bytes) (colons : colon ∈ text)
      (plain : ∀ letter ∈ text, JavaText.dot letter = true ∧ letter ≠ space)

def SnortAddress.text : SnortAddress → Bytes
  | ipv4 addr => PacketTuple.ipToString addr
  | ipv6 text _ _ => text

structure SnortEndpoint where
  address : SnortAddress
  port : Option (BitVec 16)

namespace SnortEndpoint

def portText : Option (BitVec 16) → Bytes
  | none => []
  | some port => colon :: decimal port.toNat

def portNumber : Option (BitVec 16) → Int
  | none => 0
  | some port => port.toNat

def text (endpoint : SnortEndpoint) : Bytes := endpoint.address.text ++ portText endpoint.port

end SnortEndpoint

/-- `MM/dd/yy-HH:mm:ss.uuuuuu`. -/
structure SnortTimestamp where
  month : Fin 100
  day : Fin 100
  year : Fin 100
  hour : Fin 100
  minute : Fin 100
  second : Fin 100
  micros : Fin 1000000
deriving DecidableEq, Repr

namespace SnortTimestamp

def text (timestamp : SnortTimestamp) : Bytes :=
  padded 2 timestamp.month ++ (47 :: (padded 2 timestamp.day ++ (47 ::
    (padded 2 timestamp.year ++ (45 :: (padded 2 timestamp.hour ++ (58 ::
      (padded 2 timestamp.minute ++ (58 :: (padded 2 timestamp.second ++ (46 ::
        padded 6 timestamp.micros)))))))))))

/-- The numbers of the part `MM/dd/yy-HH:mm:ss`. -/
def fields (timestamp : SnortTimestamp) : DateFields :=
  { month := timestamp.month
    day := timestamp.day
    year := padded 2 timestamp.year
    hour := timestamp.hour
    minute := timestamp.minute
    second := timestamp.second }

end SnortTimestamp

structure SnortAlert where
  timestamp : SnortTimestamp
  gid : Nat
  sid : Nat
  rev : Nat
  message : Bytes
  messageLine : ∀ letter ∈ message, JavaText.dot letter = true
  classification : Option Bytes
  classificationLine : ∀ text ∈ classification, ∀ letter ∈ text,
    JavaText.dot letter = true ∧ letter ≠ 93
  priority : Nat
  positive : 0 < priority
  proto : Bytes
  protoNamed : proto ≠ []
  protoLine : ∀ letter ∈ proto, JavaText.dot letter = true
  src : SnortEndpoint
  dst : SnortEndpoint

namespace SnortAlert

/-- `[Classification: c] ` where there is one. -/
def classificationText (alert : SnortAlert) : Bytes :=
  match alert.classification with
  | none => []
  | some text => ascii "[Classification: " ++ (text ++ ascii "] ")

def line (alert : SnortAlert) : Bytes :=
  alert.timestamp.text ++ (ascii "  " ++ (ascii "[**]" ++ (ascii " " ++ (ascii "[" ++
    (decimal alert.gid ++ (ascii ":" ++ (decimal alert.sid ++ (ascii ":" ++
      (decimal alert.rev ++ (ascii "] " ++ (alert.message ++ (ascii " [**]" ++
        ((ascii " " ++ alert.classificationText) ++ (ascii "[Priority: " ++
          (decimal alert.priority ++ (ascii "] " ++ (ascii "\x7b" ++ (alert.proto ++
            (ascii "\x7d " ++ (alert.src.text ++ (ascii " -> " ++
              alert.dst.text)))))))))))))))))))))

def tuple (alert : SnortAlert) : SnortTuple :=
  { sig := decimal alert.gid ++ ascii "_" ++ decimal alert.sid
    priority := alert.priority
    message := alert.message
    proto := alert.proto
    src := alert.src.address.text
    sport := SnortEndpoint.portNumber alert.src.port
    dst := alert.dst.address.text
    dport := SnortEndpoint.portNumber alert.dst.port }

def groups (alert : SnortAlert) : List Bytes :=
  [alert.timestamp.text, decimal alert.gid, decimal alert.sid, decimal alert.rev, alert.message,
    decimal alert.priority, alert.proto, alert.src.address.text,
    (SnortEndpoint.portText alert.src.port).tail, alert.dst.address.text,
    (SnortEndpoint.portText alert.dst.port).tail]

/-- What the pattern covers. -/
structure Covered (alert : SnortAlert) : Prop where
  priority : alert.priority ≤ 9
  proto : ∀ letter ∈ alert.proto, SnortRecordReader.wordOrPlus letter = true
  src : ∃ addr, alert.src.address = .ipv4 addr
  dst : ∃ addr, alert.dst.address = .ipv4 addr
  message : ¬ ascii " [**]" <:+: alert.message

end SnortAlert

namespace SimpleDateFormat

private theorem numberText_digits {digits after : Bytes} (nonempty : digits ≠ [])
    (allDigits : ∀ letter ∈ digits, isDigit 10 letter = true)
    (stops : ∀ letter ∈ after.head?, isDigit 10 letter = false) :
    numberText (digits ++ after) = some (digits, after) := by
  obtain ⟨first, rest, rfl⟩ := List.exists_cons_of_ne_nil nonempty
  obtain ⟨notBlank, notMinus, -⟩ := isDigit_spec (by omega) (allDigits first List.mem_cons_self)
  have noBlanks : ((first :: rest) ++ after).dropWhile
      (fun letter => letter = space || letter = tab) = (first :: rest) ++ after := by
    rw [List.cons_append, List.dropWhile_cons_of_neg]
    intro blank
    simp only [Bool.or_eq_true, decide_eq_true_eq] at blank
    rcases blank with rfl | rfl <;> cases notBlank
  have taken : ((first :: rest) ++ after).takeWhile (isDigit 10) = first :: rest := by
    have nothing : after.takeWhile (isDigit 10) = [] := by
      cases after with
      | nil => rfl
      | cons head tail => exact List.takeWhile_cons_of_neg (by simp [stops head rfl])
    rw [List.takeWhile_append_of_pos allDigits, nothing, List.append_nil]
  have unsigned : (if ((first :: rest) ++ after).head? = some 45 then [(45 : Byte)] else []) = [] :=
    if_neg (by simpa using notMinus)
  simp only [numberText, noBlanks, unsigned, List.length_nil, List.drop_zero, taken,
    List.nil_append, if_neg nonempty, List.drop_left]

private theorem padded_ne_nil {width : Nat} (positive : 0 < width) (value : Nat) :
    padded width value ≠ [] :=
  List.ne_nil_of_length_pos (by rwa [padded_length])

private theorem numberText_padded {width : Nat} (positive : 0 < width) (value : Nat)
    {letter : Byte} (stops : isDigit 10 letter = false) (after : Bytes) :
    numberText (padded width value ++ letter :: after) =
      some (padded width value, letter :: after) := by
  apply numberText_digits (padded_ne_nil positive value) fun _ => isDigit_of_mem_padded
  intro head atHead
  cases atHead
  exact stops

private theorem intValue_padded {width value : Nat} (positive : 0 < width)
    (fits : value < 10 ^ width) (small : value < 2 ^ 31) :
    intValue (padded width value) = value := by
  rw [intValue, readInt_digits (by omega) (padded_ne_nil positive value)
    (fun _ => isDigit_of_mem_padded), padded_value, Nat.mod_eq_of_lt fits, Option.getD_some]
  exact Int.bmod_eq_of_le (by omega) (by omega)

private theorem intValue_two (value : Fin 100) : intValue (padded 2 value) = value :=
  intValue_padded (by omega) value.isLt (by omega)

theorem parse_timestamp (calendar : DateFields → Int) (timestamp : SnortTimestamp) :
    parse calendar timestamp.text =
      some (1000 * calendar timestamp.fields + (timestamp.micros : Nat)) := by
  have millis : numberText (padded 6 timestamp.micros) = some (padded 6 timestamp.micros, []) := by
    have read : numberText (padded 6 timestamp.micros ++ []) = _ :=
      numberText_digits (padded_ne_nil (by omega) timestamp.micros)
        (fun _ => isDigit_of_mem_padded) (fun _ absent => by cases absent)
    rwa [List.append_nil] at read
  have micros : intValue (padded 6 timestamp.micros) = (timestamp.micros : Nat) :=
    intValue_padded (by omega) timestamp.micros.isLt (by omega)
  have slash : isDigit 10 47 = false := rfl
  have dash : isDigit 10 45 = false := rfl
  have colon : isDigit 10 58 = false := rfl
  have dot : isDigit 10 46 = false := rfl
  have two : 0 < 2 := by omega
  simp only [parse, SnortTimestamp.text, bind, Option.bind, numberText_padded two _ slash,
    numberText_padded two _ dash, numberText_padded two _ colon, numberText_padded two _ dot,
    delimiter, List.head?_cons, if_true, List.tail_cons, millis, intValue_two, micros, pure,
    SnortTimestamp.fields]

end SimpleDateFormat

end Packetpig
