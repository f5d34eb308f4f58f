/-
The class DNS of impacket: the header words of a message, and the four
sections, each of which is found by parsing all the sections before it.

A call that nests too deeply raises; `frames` is what the recursion limit
leaves to the caller.
-/

import Packetpig.Exceptions
import Packetpig.Library.Json

namespace Packetpig

open Text

def inFrame {α : Type} (body : Nat → Except PyException α) : Nat → Except PyException α
  | 0 => .error (.other (ascii "maximum recursion depth exceeded"))
  | frames + 1 => body frames

namespace Struct

/-- `struct.unpack("!H", text)[0]`. -/
def unpackH : Bytes → Except PyException Nat
  | [b1, b0] => .ok (b1.toNat * 256 + b0.toNat)
  | _ => .error (.other (ascii "unpack requires a string argument of length 2"))

def unpackL : Bytes → Except PyException Nat
  | [b3, b2, b1, b0] =>
      .ok (((b3.toNat * 256 + b2.toNat) * 256 + b1.toNat) * 256 + b0.toNat)
  | _ => .error (.other (ascii "unpack requires a string argument of length 4"))

end Struct

/-- `socket.inet_ntoa`. -/
def inetNtoa : Bytes → Except PyException Bytes
  | [b3, b2, b1, b0] =>
      .ok ((ascii ".").intercalate ([b3, b2, b1, b0].map fun part => decimal part.toNat))
  | _ => .error (.other (ascii "packed IP wrong length"))

namespace DNSType

def A : Nat := 1
def NS : Nat := 2
def CNAME : Nat := 5
def SOA : Nat := 6
def PTR : Nat := 12
def MX : Nat := 15

end DNSType

def DNSFlags.QR_RESPONSE : Nat := 0x8000

structure DNSQuestion where
  qname : Bytes
  qtype : Nat
  qclass : Nat

structure DNSResource extends DNSQuestion where
  qttl : Nat
  qrdata : List (Bytes × Json)

structure DNS where
  header : Bytes
  body : Bytes

namespace DNS

/-- `DNS(payload)`. -/
def new (payload : Bytes) : DNS := { header := payload.take 12, body := payload.drop 12 }

/-- `header.get_word`: a header that is too short is filled up with zeros. -/
def getWord (message : DNS) (index : Nat) : Nat :=
  (message.header.getD index 0).toNat * 256 + (message.header.getD (index + 1) 0).toNat

def getTransactionId (message : DNS) : Nat := message.getWord 0
def getFlags (message : DNS) : Nat := message.getWord 2
def getQdcount (message : DNS) : Nat := message.getWord 4
def getAncount (message : DNS) : Nat := message.getWord 6
def getNscount (message : DNS) : Nat := message.getWord 8
def getArcount (message : DNS) : Nat := message.getWord 10

/-- The offset behind a name and the name. A pointer into the header gives a
negative offset, which counts from the end of the buffer. -/
def parseCompressedMessage (buffer : Bytes) : Nat → Int → Except PyException (Int × Bytes)
  | 0, _ => .error (.other (ascii "maximum recursion depth exceeded"))
  | frames + 1, offset =>
      if (buffer.length : Int) ≤ offset then
        .error (.other (ascii "No more data to parse. Offset is bigger than length of buffer."))
      else
        match item buffer offset with
        | none => .error .indexError
        | some byte =>
            if byte &&& 0xC0 = 0xC0 then do
              let pointer ← Struct.unpackH (slice buffer offset (offset + 2))
              let pointer := ((pointer &&& 0x3FFF : Nat) : Int) - 12
              let (_, name) ← parseCompressedMessage buffer frames pointer
              return (offset + 2, name)
            else if byte = 0 then .ok (offset + 1, [])
            else do
              let name := slice buffer (offset + 1) (offset + 1 + byte.toNat)
              let (offset, unamed) ←
                parseCompressedMessage buffer frames (offset + 1 + byte.toNat)
              if unamed = [] then return (offset, name)
              else return (offset, name ++ ascii "." ++ unamed)

/-- `for i in range(qdcount)`. -/
def questionLoop (data : Bytes) (frames : Nat) :
    Nat → Int → List DNSQuestion → Except PyException (List DNSQuestion × Int)
  | 0, offset, aux => .ok (aux, offset)
  | count + 1, offset, aux => do
      let (offset, qname) ← parseCompressedMessage data frames offset
      let qtype ← Struct.unpackH (slice data offset (offset + 2))
      let qclass ← Struct.unpackH (slice data (offset + 2) (offset + 4))
      questionLoop data frames count (offset + 4) (aux ++ [{ qname, qtype, qclass }])

def readName (data : Bytes) (frames : Nat) (key : Bytes) (offset : Int) :
    Except PyException (Int × Bytes × Json) := do
  let (offset, name) ← parseCompressedMessage data frames offset
  return (offset, key, .text name)

def readLong (data : Bytes) (key : Bytes) (offset : Int) : Except PyException (Bytes × Json) := do
  let value ← Struct.unpackL (slice data offset (offset + 4))
  return (key, .int value)

/-- The offset behind the data of a resource and the data, by its type. -/
def readData (data : Bytes) (frames : Nat) (qtype qrdlength : Nat) (offset : Int) :
    Except PyException (Int × List (Bytes × Json)) :=
  if qtype = DNSType.A then do
    let address ← inetNtoa (slice data offset (offset + qrdlength))
    return (offset + 4, [(ascii "IPAddress", .text address)])
  else if qtype = DNSType.SOA then do
    let (offset, primaryNs) ← readName data frames (ascii "PrimaryNS") offset
    let (offset, adminMb) ← readName data frames (ascii "AdminMB") offset
    let serial ← readLong data (ascii "SerialNumber") offset
    let refresh ← readLong data (ascii "RefreshInterval") (offset + 4)
    let retry ← readLong data (ascii "RetryInterval") (offset + 8)
    let expiration ← readLong data (ascii "ExpirationLimit") (offset + 12)
    let minimum ← readLong data (ascii "MinimumTTL") (offset + 16)
    return (offset + 20, [primaryNs, adminMb, serial, refresh, retry, expiration, minimum])
  else if qtype = DNSType.MX then do
    -- The offset stays at the preference, so the exchanger is read from there.
    let preference ← Struct.unpackH (slice data offset (offset + 2))
    let (offset, exchanger) ← readName data frames (ascii "MailExchanger") offset
    return (offset, [(ascii "Preference", .int preference), exchanger])
  else if qtype = DNSType.PTR ∨ qtype = DNSType.NS ∨ qtype = DNSType.CNAME then do
    let (offset, name) ← readName data frames (ascii "Name") offset
    return (offset, [name])
  else .ok (offset + qrdlength, [])

def parseResource (data : Bytes) (frames : Nat) (offset : Int) :
    Except PyException (Int × DNSResource) := do
  let (offset, qname) ← parseCompressedMessage data frames offset
  let qtype ← Struct.unpackH (slice data offset (offset + 2))
  let qclass ← Struct.unpackH (slice data (offset + 2) (offset + 4))
  let qttl ← Struct.unpackL (slice data (offset + 4) (offset + 8))
  let qrdlength ← Struct.unpackH (slice data (offset + 8) (offset + 10))
  let (offset, qrdata) ← readData data frames qtype qrdlength (offset + 10)
  return (offset, { qname, qtype, qclass, qttl, qrdata })

def answerLoop (data : Bytes) (frames : Nat) :
    Nat → Int → List DNSResource → Except PyException (List DNSResource × Int)
  | 0, offset, aux => .ok (aux, offset)
  | num + 1, offset, aux => do
      let (offset, resource) ← parseResource data frames offset
      answerLoop data frames num offset (aux ++ [resource])

section Sections

variable (message : DNS)

def questionSection : Nat → Except PyException (List DNSQuestion × Int) :=
  inFrame fun frames => questionLoop message.body frames message.getQdcount 0 []

def processAnswerStructure (offset : Int) (num : Nat) :
    Nat → Except PyException (List DNSResource × Int) :=
  inFrame fun frames => answerLoop message.body frames num offset []

def answerSection : Nat → Except PyException (List DNSResource × Int) :=
  inFrame fun frames => do
    let offset := (← message.questionSection frames).2
    message.processAnswerStructure offset message.getAncount frames

def authoritativeSection : Nat → Except PyException (List DNSResource × Int) :=
  inFrame fun frames => do
    let offset := (← message.answerSection frames).2
    message.processAnswerStructure offset message.getNscount frames

def additionalSection : Nat → Except PyException (List DNSResource × Int) :=
  inFrame fun frames => do
    let offset := (← message.authoritativeSection frames).2
    message.processAnswerStructure offset message.getArcount frames

def getQuestions : Nat → Except PyException (List DNSQuestion) :=
  inFrame fun frames => Prod.fst <$> message.questionSection frames

def getAnswers : Nat → Except PyException (List DNSResource) :=
  inFrame fun frames => Prod.fst <$> message.answerSection frames

def getAuthoritatives : Nat → Except PyException (List DNSResource) :=
  inFrame fun frames => Prod.fst <$> message.authoritativeSection frames

def getAdditionals : Nat → Except PyException (List DNSResource) :=
  inFrame fun frames => Prod.fst <$> message.additionalSection frames

end Sections

end DNS

/-! ### What is accepted -/

theorem Struct.unpackH_lt {text : Bytes} {value : Nat} (unpacked : unpackH text = .ok value) :
    value < 2 ^ 16 := by
  match text, unpacked with
  | [b1, b0], unpacked =>
      have high := b1.toNat_lt
      have low := b0.toNat_lt
      cases unpacked
      omega

theorem Struct.unpackL_lt {text : Bytes} {value : Nat} (unpacked : unpackL text = .ok value) :
    value < 2 ^ 32 := by
  match text, unpacked with
  | [b3, b2, b1, b0], unpacked =>
      have first := b3.toNat_lt
      have second := b2.toNat_lt
      have third := b1.toNat_lt
      have fourth := b0.toNat_lt
      cases unpacked
      omega

theorem inFrame_eq_ok {α : Type} {body : Nat → Except PyException α} {frames : Nat} {result : α}
    (done : inFrame body frames = .ok result) : ∃ left, body left = .ok result := by
  cases frames with
  | zero => cases done
  | succ left => exact ⟨left, done⟩

/-- The address among the data of a resource, or `null`. -/
def DNSResource.ipAddress (resource : DNSResource) : Option Bytes :=
  (resource.qrdata.lookup (ascii "IPAddress")).bind Json.getTextValue

/-- The numbers of a resource fit their fields, and exactly the resources of
type A have an address. -/
structure DNSResource.WellFormed (resource : DNSResource) : Prop where
  qtype : resource.qtype < 2 ^ 16
  qclass : resource.qclass < 2 ^ 16
  qttl : resource.qttl < 2 ^ 32
  ipAddress : resource.ipAddress.isSome ↔ resource.qtype = DNSType.A

namespace DNS

theorem getWord_lt (message : DNS) (index : Nat) : message.getWord index < 2 ^ 16 := by
  have high := (message.header.getD index 0).toNat_lt
  have low := (message.header.getD (index + 1) 0).toNat_lt
  unfold getWord
  omega

private theorem readName_key {data key : Bytes} {frames : Nat} {offset after : Int}
    {field : Bytes × Json} (parsed : readName data frames key offset = .ok (after, field)) :
    field.1 = key := by
  obtain ⟨⟨_, name⟩, -, parsed⟩ := bind_eq_ok parsed
  cases parsed
  rfl

private theorem readLong_key {data key : Bytes} {offset : Int} {field : Bytes × Json}
    (parsed : readLong data key offset = .ok field) : field.1 = key := by
  obtain ⟨value, -, parsed⟩ := bind_eq_ok parsed
  cases parsed
  rfl

private theorem readData_keys {data : Bytes} {frames qtype qrdlength : Nat}
    {offset after : Int} {qrdata : List (Bytes × Json)} (notA : qtype ≠ DNSType.A)
    (parsed : readData data frames qtype qrdlength offset = .ok (after, qrdata)) :
    ∀ field ∈ qrdata, field.1 ≠ ascii "IPAddress" := by
  rw [readData, if_neg notA] at parsed
  split at parsed
  · obtain ⟨⟨_, primaryNs⟩, primaryRead, parsed⟩ := bind_eq_ok parsed
    obtain ⟨⟨_, adminMb⟩, adminRead, parsed⟩ := bind_eq_ok parsed
    obtain ⟨serial, serialRead, parsed⟩ := bind_eq_ok parsed
    obtain ⟨refresh, refreshRead, parsed⟩ := bind_eq_ok parsed
    obtain ⟨retry, retryRead, parsed⟩ := bind_eq_ok parsed
    obtain ⟨expiration, expirationRead, parsed⟩ := bind_eq_ok parsed
    obtain ⟨minimum, minimumRead, parsed⟩ := bind_eq_ok parsed
    cases parsed
    simp only [List.forall_mem_cons, readName_key primaryRead, readName_key adminRead,
      readLong_key serialRead, readLong_key refreshRead, readLong_key retryRead,
      readLong_key expirationRead, readLong_key minimumRead]
    decide
  · split at parsed
    · obtain ⟨preference, -, parsed⟩ := bind_eq_ok parsed
      obtain ⟨⟨_, exchanger⟩, exchangerRead, parsed⟩ := bind_eq_ok parsed
      cases parsed
      simp only [List.forall_mem_cons, readName_key exchangerRead]
      decide
    · split at parsed
      · obtain ⟨⟨_, name⟩, nameRead, parsed⟩ := bind_eq_ok parsed
        cases parsed
        simp only [List.forall_mem_cons, readName_key nameRead]
        decide
      · cases parsed
        exact List.forall_mem_nil _

private theorem readData_ipAddress {data : Bytes} {frames qtype qrdlength : Nat}
    {offset after : Int} {qrdata : List (Bytes × Json)}
    (parsed : readData data frames qtype qrdlength offset = .ok (after, qrdata)) :
    ((qrdata.lookup (ascii "IPAddress")).bind Json.getTextValue).isSome ↔ qtype = DNSType.A := by
  by_cases isA : qtype = DNSType.A
  · rw [readData, if_pos isA] at parsed
    obtain ⟨address, -, parsed⟩ := bind_eq_ok parsed
    cases parsed
    exact iff_of_true rfl isA
  · have missing : qrdata.lookup (ascii "IPAddress") = none := by
      rw [List.lookup_eq_none_iff]
      intro field member
      simpa using (readData_keys isA parsed field member).symm
    rw [missing]
    exact iff_of_false (by simp) isA

theorem parseResource_wellFormed {data : Bytes} {frames : Nat} {offset after : Int}
    {resource : DNSResource} (parsed : parseResource data frames offset = .ok (after, resource)) :
    resource.WellFormed := by
  obtain ⟨⟨offset, qname⟩, -, parsed⟩ := bind_eq_ok parsed
  obtain ⟨qtype, typeRead, parsed⟩ := bind_eq_ok parsed
  obtain ⟨qclass, classRead, parsed⟩ := bind_eq_ok parsed
  obtain ⟨qttl, ttlRead, parsed⟩ := bind_eq_ok parsed
  obtain ⟨qrdlength, -, parsed⟩ := bind_eq_ok parsed
  obtain ⟨⟨offset, qrdata⟩, dataRead, parsed⟩ := bind_eq_ok parsed
  cases parsed
  exact ⟨Struct.unpackH_lt typeRead, Struct.unpackH_lt classRead, Struct.unpackL_lt ttlRead,
    readData_ipAddress dataRead⟩

private theorem answerLoop_wellFormed (data : Bytes) (frames num : Nat) (offset : Int)
    (aux : List DNSResource) {resources : List DNSResource} {after : Int}
    (parsed : answerLoop data frames num offset aux = .ok (resources, after))
    (wellFormed : ∀ resource ∈ aux, resource.WellFormed) :
    ∀ resource ∈ resources, resource.WellFormed := by
  induction num generalizing offset aux with
  | zero =>
      cases parsed
      exact wellFormed
  | succ num ih =>
      obtain ⟨⟨offset, resource⟩, one, parsed⟩ := bind_eq_ok parsed
      refine ih _ _ parsed (List.forall_mem_append.mpr ⟨wellFormed, ?_⟩)
      exact List.forall_mem_singleton.mpr (parseResource_wellFormed one)

theorem processAnswerStructure_wellFormed {message : DNS} {offset after : Int} {num frames : Nat}
    {resources : List DNSResource}
    (parsed : message.processAnswerStructure offset num frames = .ok (resources, after)) :
    ∀ resource ∈ resources, resource.WellFormed := by
  obtain ⟨left, parsed⟩ := inFrame_eq_ok parsed
  exact answerLoop_wellFormed _ _ _ _ _ parsed (List.forall_mem_nil _)

theorem processAnswerStructure_zero {message : DNS} {offset after : Int} {frames : Nat}
    {resources : List DNSResource}
    (parsed : message.processAnswerStructure offset 0 frames = .ok (resources, after)) :
    resources = [] := by
  obtain ⟨left, parsed⟩ := inFrame_eq_ok parsed
  cases parsed
  rfl

private theorem getter_processed {message : DNS} {α : Type}
    {previous : Nat → Except PyException (α × Int)} {num frames : Nat}
    {resources : List DNSResource}
    (parsed : inFrame (fun frames => Prod.fst <$> inFrame (fun frames => do
      let offset := (← previous frames).2
      message.processAnswerStructure offset num frames) frames) frames = .ok resources) :
    ∃ offset left after,
      message.processAnswerStructure offset num left = .ok (resources, after) := by
  obtain ⟨left, mapped⟩ := inFrame_eq_ok parsed
  obtain ⟨⟨resources, after⟩, inSection, rfl⟩ := map_eq_ok mapped
  obtain ⟨left, bound⟩ := inFrame_eq_ok inSection
  obtain ⟨⟨_, offset⟩, -, processed⟩ := bind_eq_ok bound
  exact ⟨offset, left, after, processed⟩

theorem getAnswers_processed {message : DNS} {frames : Nat} {answers : List DNSResource}
    (parsed : message.getAnswers frames = .ok answers) : ∃ offset left after,
      message.processAnswerStructure offset message.getAncount left = .ok (answers, after) :=
  getter_processed parsed

theorem getAuthoritatives_processed {message : DNS} {frames : Nat}
    {authoritatives : List DNSResource}
    (parsed : message.getAuthoritatives frames = .ok authoritatives) : ∃ offset left after,
      message.processAnswerStructure offset message.getNscount left =
        .ok (authoritatives, after) :=
  getter_processed parsed

theorem getAdditionals_processed {message : DNS} {frames : Nat} {additionals : List DNSResource}
    (parsed : message.getAdditionals frames = .ok additionals) : ∃ offset left after,
      message.processAnswerStructure offset message.getArcount left = .ok (additionals, after) :=
  getter_processed parsed

theorem getAnswers_wellFormed {message : DNS} {frames : Nat} {answers : List DNSResource}
    (parsed : message.getAnswers frames = .ok answers) :
    ∀ resource ∈ answers, resource.WellFormed := by
  obtain ⟨offset, left, after, processed⟩ := getAnswers_processed parsed
  exact processAnswerStructure_wellFormed processed

theorem getQuestions_nil {message : DNS} {frames : Nat} {questions : List DNSQuestion}
    (empty : message.getQdcount = 0) (parsed : message.getQuestions frames = .ok questions) :
    questions = [] := by
  obtain ⟨left, mapped⟩ := inFrame_eq_ok parsed
  obtain ⟨⟨questions, after⟩, inSection, rfl⟩ := map_eq_ok mapped
  obtain ⟨left, looped⟩ := inFrame_eq_ok inSection
  rw [empty] at looped
  cases looped
  rfl

end DNS

end Packetpig
