/-
Messages as they are written: questions and resources one behind the other, with
names compressed in any way. The getters find every section, and each datagram
with such a message gives its rows.

The exchanger of an MX resource is read from the preference in front of it, so
resources of this type are left out here.
-/

import Packetpig.Dns.ConversationRows
import Packetpig.Dns.WireNames

namespace Packetpig

open Text Radix

section Entries

variable (buffer : Bytes) (bound : Nat)

/-- A question at an offset and the offset behind it. Names have a bounded number
of parts. -/
inductive QuestionAt (offset : Nat) : DNSQuestion → Nat → Prop
  | mk {labels : List DNSLabel} {behind parts qtype qclass : Nat}
      (name : NameAt buffer offset labels behind parts) (few : parts ≤ bound)
      (words : qtype < 2 ^ 16 ∧ qclass < 2 ^ 16)
      (numbers : At buffer behind (digits 2 qtype ++ digits 2 qclass)) :
      QuestionAt offset { qname := dotted labels, qtype, qclass } (behind + 4)

def structuredTypes : List Nat :=
  [DNSType.A, DNSType.SOA, DNSType.MX, DNSType.PTR, DNSType.NS, DNSType.CNAME]

structure SoaNumbers where
  serial : Nat
  refresh : Nat
  retry : Nat
  expiration : Nat
  minimum : Nat

def SoaNumbers.list (numbers : SoaNumbers) : List Nat :=
  [numbers.serial, numbers.refresh, numbers.retry, numbers.expiration, numbers.minimum]

inductive DataAt (qtype offset : Nat) : List (Bytes × Json) → Nat → Prop
  | address {bytes : Bytes} (isA : qtype = DNSType.A) (four : bytes.length = 4)
      (here : At buffer offset bytes) :
      DataAt qtype offset
        [(ascii "IPAddress",
          .text ((ascii ".").intercalate (bytes.map fun part => decimal part.toNat)))]
        (offset + 4)
  | name {labels : List DNSLabel} {after parts : Nat}
      (isName : qtype = DNSType.PTR ∨ qtype = DNSType.NS ∨ qtype = DNSType.CNAME)
      (name : NameAt buffer offset labels after parts) (few : parts ≤ bound) :
      DataAt qtype offset [(ascii "Name", .text (dotted labels))] after
  | soa {primary admin : List DNSLabel} {second behind parts parts' : Nat} {numbers : SoaNumbers}
      (isSoa : qtype = DNSType.SOA) (primaryAt : NameAt buffer offset primary second parts)
      (adminAt : NameAt buffer second admin behind parts') (few : parts ≤ bound ∧ parts' ≤ bound)
      (longs : ∀ number ∈ numbers.list, number < 2 ^ 32)
      (here : At buffer behind (numbers.list.flatMap (digits 4))) :
      DataAt qtype offset
        [(ascii "PrimaryNS", .text (dotted primary)), (ascii "AdminMB", .text (dotted admin)),
          (ascii "SerialNumber", .int numbers.serial), (ascii "RefreshInterval", .int numbers.refresh),
          (ascii "RetryInterval", .int numbers.retry),
          (ascii "ExpirationLimit", .int numbers.expiration),
          (ascii "MinimumTTL", .int numbers.minimum)] (behind + 20)
  | other {bytes : Bytes} (isOther : qtype ∉ structuredTypes) (here : At buffer offset bytes) :
      DataAt qtype offset [] (offset + bytes.length)

inductive ResourceAt (offset : Nat) : DNSResource → Nat → Prop
  | mk {labels : List DNSLabel} {behind parts qtype qclass qttl qrdlength : Nat}
      {qrdata : List (Bytes × Json)} (name : NameAt buffer offset labels behind parts)
      (few : parts ≤ bound) (words : qtype < 2 ^ 16 ∧ qclass < 2 ^ 16 ∧ qrdlength < 2 ^ 16)
      (long : qttl < 2 ^ 32)
      (numbers : At buffer behind
        (digits 2 qtype ++ digits 2 qclass ++ digits 4 qttl ++ digits 2 qrdlength))
      (data : DataAt buffer bound qtype (behind + 10) qrdata (behind + 10 + qrdlength)) :
      ResourceAt offset { qname := dotted labels, qtype, qclass, qttl, qrdata }
        (behind + 10 + qrdlength)

end Entries

inductive EntriesAt {α : Type} (EntryAt : Nat → α → Nat → Prop) : Nat → List α → Nat → Prop
  | nil {offset : Nat} : EntriesAt EntryAt offset [] offset
  | cons {offset behind after : Nat} {entry : α} {entries : List α}
      (here : EntryAt offset entry behind) (rest : EntriesAt EntryAt behind entries after) :
      EntriesAt EntryAt offset (entry :: entries) after

inductive MessageAt (message : DNS) (bound : Nat) (sections : DNSSections) : Prop
  | mk {first second third last : Nat}
      (questions : EntriesAt (QuestionAt message.body bound) 0 sections.questions first)
      (answers : EntriesAt (ResourceAt message.body bound) first sections.answers second)
      (authoritatives :
        EntriesAt (ResourceAt message.body bound) second sections.authoritatives third)
      (additionals : EntriesAt (ResourceAt message.body bound) third sections.additionals last)
      (qdcount : message.getQdcount = sections.questions.length)
      (ancount : message.getAncount = sections.answers.length)
      (nscount : message.getNscount = sections.authoritatives.length)
      (arcount : message.getArcount = sections.additionals.length)

/-! ### What is read -/

namespace DNS

variable {buffer : Bytes} {bound frames : Nat}

private theorem unpackH_at {offset number : Nat} (here : At buffer offset (digits 2 number))
    (small : number < 2 ^ 16) {low high : Int} (isLow : low = offset) (isHigh : high = offset + 2) :
    Struct.unpackH (slice buffer low high) = .ok number := by
  rw [here.slice_eq isLow (by rw [isHigh, digits_length]; rfl), Struct.unpackH_digits small]

private theorem unpackL_at {offset number : Nat} (here : At buffer offset (digits 4 number))
    (small : number < 2 ^ 32) {low high : Int} (isLow : low = offset) (isHigh : high = offset + 4) :
    Struct.unpackL (slice buffer low high) = .ok number := by
  rw [here.slice_eq isLow (by rw [isHigh, digits_length]; rfl), Struct.unpackL_digits small]

theorem questionLoop_entriesAt (enough : bound ≤ frames) {offset after : Nat}
    {questions : List DNSQuestion}
    (written : EntriesAt (QuestionAt buffer bound) offset questions after)
    (aux : List DNSQuestion) :
    questionLoop buffer frames questions.length offset aux =
      .ok (aux ++ questions, (after : Int)) := by
  induction written generalizing aux with
  | nil =>
      rw [List.append_nil]
      rfl
  | @cons offset behind after question questions here rest ih =>
      cases here with
      | @mk labels nameEnd parts qtype qclass name few words numbers =>
          have readName := parseCompressedMessage_nameAt name (few.trans enough)
          have classAt := numbers.right
          rw [digits_length] at classAt
          have readType := unpackH_at numbers.left words.1 rfl rfl
          have readClass := unpackH_at classAt words.2 (show ((nameEnd : Int) + 2) = _ by omega)
            (show ((nameEnd : Int) + 4) = _ by omega)
          have later := ih (aux ++ [{ qname := dotted labels, qtype, qclass }])
          rw [List.append_assoc, List.singleton_append] at later
          rw [List.length_cons, questionLoop, readName]
          simp only [bind, Except.bind, readType, readClass]
          exact later

private theorem readName_nameAt (enough : bound ≤ frames) {offset after parts : Nat}
    {labels : List DNSLabel} (name : NameAt buffer offset labels after parts) (few : parts ≤ bound)
    (key : Bytes) :
    readName buffer frames key offset = .ok ((after : Int), key, .text (dotted labels)) := by
  rw [readName, parseCompressedMessage_nameAt name (few.trans enough)]
  rfl

private theorem readLong_at {offset number : Nat} (here : At buffer offset (digits 4 number))
    (small : number < 2 ^ 32) (key : Bytes) {place : Int} (isPlace : place = offset) :
    readLong buffer key place = .ok (key, .int number) := by
  rw [readLong, unpackL_at here small isPlace (by rw [isPlace])]
  rfl

private theorem soaNumbers_at {numbers : SoaNumbers} {offset : Nat}
    (here : At buffer offset (numbers.list.flatMap (digits 4))) :
    At buffer offset (digits 4 numbers.serial) ∧
      At buffer (offset + 4) (digits 4 numbers.refresh) ∧
      At buffer (offset + 8) (digits 4 numbers.retry) ∧
      At buffer (offset + 12) (digits 4 numbers.expiration) ∧
      At buffer (offset + 16) (digits 4 numbers.minimum) := by
  have first : At buffer offset (digits 4 numbers.serial ++ (digits 4 numbers.refresh ++
      (digits 4 numbers.retry ++ (digits 4 numbers.expiration ++
        (digits 4 numbers.minimum ++ []))))) := here
  have second := first.right
  have third := second.right
  have fourth := third.right
  have fifth := fourth.right
  simp only [digits_length, Nat.add_assoc] at second third fourth fifth
  exact ⟨first.left, second.left, third.left, fourth.left, fifth.left⟩

theorem readData_dataAt (enough : bound ≤ frames) {qtype offset after : Nat}
    {qrdata : List (Bytes × Json)} (written : DataAt buffer bound qtype offset qrdata after) :
    readData buffer frames qtype (after - offset) offset = .ok ((after : Int), qrdata) := by
  cases written with
  | @address bytes isA four here =>
      have read := here.slice_eq rfl (show ((offset : Int) + (offset + 4 - offset : Nat)) = _ by
        rw [Nat.add_sub_cancel_left, four])
      rw [readData, if_pos isA, read]
      obtain ⟨b3, b2, b1, b0, rfl⟩ := List.length_eq_four.mp four
      rfl
  | @name labels _ parts isName name few =>
      have plain : qtype ≠ DNSType.A ∧ qtype ≠ DNSType.SOA ∧ qtype ≠ DNSType.MX := by
        rcases isName with same | same | same
        · rw [same]; decide
        · rw [same]; decide
        · rw [same]; decide
      rw [readData, if_neg plain.1, if_neg plain.2.1, if_neg plain.2.2, if_pos isName,
        readName_nameAt enough name few]
      rfl
  | @soa primary admin second behind parts parts' numbers isSoa primaryAt adminAt few longs here =>
      have notA : qtype ≠ DNSType.A := by
        rw [isSoa]
        decide
      have small : ∀ number ∈ numbers.list, number < 2 ^ 32 := longs
      simp only [SoaNumbers.list, List.forall_mem_cons] at small
      obtain ⟨serial, refresh, retry, expiration, minimum, -⟩ := small
      obtain ⟨atSerial, atRefresh, atRetry, atExpiration, atMinimum⟩ := soaNumbers_at here
      rw [readData, if_neg notA, if_pos isSoa]
      simp only [bind, Except.bind, readName_nameAt enough primaryAt few.1,
        readName_nameAt enough adminAt few.2, readLong_at atSerial serial _ rfl,
        readLong_at atRefresh refresh _ (show ((behind : Int) + 4) = _ from rfl),
        readLong_at atRetry retry _ (show ((behind : Int) + 8) = _ from rfl),
        readLong_at atExpiration expiration _ (show ((behind : Int) + 12) = _ from rfl),
        readLong_at atMinimum minimum _ (show ((behind : Int) + 16) = _ from rfl)]
      rfl
  | @other bytes isOther here =>
      simp only [structuredTypes, List.mem_cons, List.not_mem_nil, or_false, not_or] at isOther
      obtain ⟨notA, notSoa, notMx, notPtr, notNs, notCname⟩ := isOther
      have notName : ¬ (qtype = DNSType.PTR ∨ qtype = DNSType.NS ∨ qtype = DNSType.CNAME) := by
        rintro (same | same | same)
        · exact notPtr same
        · exact notNs same
        · exact notCname same
      rw [readData, if_neg notA, if_neg notSoa, if_neg notMx, if_neg notName,
        Nat.add_sub_cancel_left]
      rfl

theorem parseResource_resourceAt (enough : bound ≤ frames) {offset after : Nat}
    {resource : DNSResource} (written : ResourceAt buffer bound offset resource after) :
    parseResource buffer frames offset = .ok ((after : Int), resource) := by
  cases written with
  | @mk labels behind parts qtype qclass qttl qrdlength qrdata name few words long numbers data =>
      have classAt := numbers.left.left.right
      have ttlAt := numbers.left.right
      have lengthAt := numbers.right
      simp only [List.length_append, digits_length] at classAt ttlAt lengthAt
      rw [parseResource, parseCompressedMessage_nameAt name (few.trans enough)]
      simp only [bind, Except.bind, unpackH_at numbers.left.left.left words.1 rfl rfl,
        unpackH_at classAt words.2.1 (show ((behind : Int) + 2) = _ by omega)
          (show ((behind : Int) + 4) = _ by omega),
        unpackL_at ttlAt long (show ((behind : Int) + 4) = _ by omega)
          (show ((behind : Int) + 8) = _ by omega),
        unpackH_at lengthAt words.2.2 (show ((behind : Int) + 8) = _ by omega)
          (show ((behind : Int) + 10) = _ by omega)]
      have read := readData_dataAt enough data
      rw [Nat.add_sub_cancel_left] at read
      push_cast at read ⊢
      rw [read]
      rfl

theorem answerLoop_entriesAt (enough : bound ≤ frames) {offset after : Nat}
    {resources : List DNSResource}
    (written : EntriesAt (ResourceAt buffer bound) offset resources after)
    (aux : List DNSResource) :
    answerLoop buffer frames resources.length offset aux =
      .ok (aux ++ resources, (after : Int)) := by
  induction written generalizing aux with
  | nil =>
      rw [List.append_nil]
      rfl
  | @cons offset behind after resource resources here rest ih =>
      have later := ih (aux ++ [resource])
      rw [List.append_assoc, List.singleton_append] at later
      rw [List.length_cons, answerLoop, parseResource_resourceAt enough here]
      exact later

variable {message : DNS} {sections : DNSSections}

theorem getters_messageAt (written : MessageAt message bound sections) (enough : bound + 5 ≤ frames) :
    message.getQuestions frames = .ok sections.questions ∧
      message.getAnswers frames = .ok sections.answers ∧
      message.getAuthoritatives frames = .ok sections.authoritatives ∧
      message.getAdditionals frames = .ok sections.additionals := by
  rcases written with ⟨questions, answers, authoritatives, additionals, qdcount, ancount, nscount, arcount⟩
  rename_i first second third last
  have question : ∀ {left : Nat}, bound + 1 ≤ left →
      message.questionSection left = .ok (sections.questions, (first : Int)) := by
    intro left most
    obtain ⟨left, rfl⟩ := Nat.exists_eq_add_of_le' (Nat.le_trans (Nat.le_add_left 1 bound) most)
    rw [questionSection, inFrame, qdcount]
    exact questionLoop_entriesAt (by omega) questions []
  have resources : ∀ {left : Nat} {start behind : Nat} {entries : List DNSResource},
      bound + 1 ≤ left → EntriesAt (ResourceAt message.body bound) start entries behind →
        message.processAnswerStructure start entries.length left =
          .ok (entries, (behind : Int)) := by
    intro left start behind entries most written
    obtain ⟨left, rfl⟩ := Nat.exists_eq_add_of_le' (Nat.le_trans (Nat.le_add_left 1 bound) most)
    exact answerLoop_entriesAt (by omega) written []
  have answer : ∀ {left : Nat}, bound + 2 ≤ left →
      message.answerSection left = .ok (sections.answers, (second : Int)) := by
    intro left most
    obtain ⟨left, rfl⟩ := Nat.exists_eq_add_of_le' (Nat.le_trans (Nat.le_add_left 2 bound) most)
    rw [answerSection, inFrame, question (show bound + 1 ≤ left + 1 by omega), ancount]
    exact resources (show bound + 1 ≤ left + 1 by omega) answers
  have authoritative : ∀ {left : Nat}, bound + 3 ≤ left →
      message.authoritativeSection left = .ok (sections.authoritatives, (third : Int)) := by
    intro left most
    obtain ⟨left, rfl⟩ := Nat.exists_eq_add_of_le' (Nat.le_trans (Nat.le_add_left 3 bound) most)
    rw [authoritativeSection, inFrame, answer (show bound + 2 ≤ left + 2 by omega), nscount]
    exact resources (show bound + 1 ≤ left + 2 by omega) authoritatives
  have additional : ∀ {left : Nat}, bound + 4 ≤ left →
      message.additionalSection left = .ok (sections.additionals, (last : Int)) := by
    intro left most
    obtain ⟨left, rfl⟩ := Nat.exists_eq_add_of_le' (Nat.le_trans (Nat.le_add_left 4 bound) most)
    rw [additionalSection, inFrame, authoritative (show bound + 3 ≤ left + 3 by omega), arcount]
    exact resources (show bound + 1 ≤ left + 3 by omega) additionals
  obtain ⟨frames, rfl⟩ := Nat.exists_eq_add_of_le' (Nat.le_trans (Nat.le_add_left 5 bound) enough)
  refine ⟨?_, ?_, ?_, ?_⟩
  · rw [getQuestions, inFrame, question (show bound + 1 ≤ frames + 4 by omega)]
    rfl
  · rw [getAnswers, inFrame, answer (show bound + 2 ≤ frames + 4 by omega)]
    rfl
  · rw [getAuthoritatives, inFrame, authoritative (show bound + 3 ≤ frames + 4 by omega)]
    rfl
  · rw [getAdditionals, inFrame, additional (show bound + 4 ≤ frames + 4 by omega)]
    rfl

theorem sections_messageAt (written : MessageAt message bound sections)
    (enough : bound + 5 ≤ frames) : message.sections frames = .ok sections := by
  obtain ⟨questions, answers, authoritatives, additionals⟩ := getters_messageAt written enough
  exact sections_of_getters questions answers authoritatives additionals

private theorem processAnswerStructure_endless (endless : Endless message.body 0) {num left : Nat}
    {result : List DNSResource × Int}
    (parsed : message.processAnswerStructure 0 num left = .ok result) : num = 0 ∧ result.2 = 0 := by
  obtain ⟨left, parsed⟩ := inFrame_eq_ok parsed
  cases num with
  | zero =>
      cases parsed
      exact ⟨rfl, rfl⟩
  | succ num =>
      obtain ⟨⟨after, resource⟩, one, -⟩ := bind_eq_ok parsed
      obtain ⟨⟨behind, qname⟩, name, -⟩ := bind_eq_ok one
      rw [parseCompressedMessage_endless endless] at name
      cases name

private theorem questionSection_endless (endless : Endless message.body 0) {left : Nat}
    {result : List DNSQuestion × Int} (parsed : message.questionSection left = .ok result) :
    message.getQdcount = 0 ∧ result.2 = 0 := by
  obtain ⟨left, parsed⟩ := inFrame_eq_ok parsed
  cases count : message.getQdcount with
  | zero =>
      rw [count] at parsed
      cases parsed
      exact ⟨rfl, rfl⟩
  | succ num =>
      rw [count] at parsed
      obtain ⟨⟨behind, qname⟩, name, -⟩ := bind_eq_ok parsed
      rw [parseCompressedMessage_endless endless] at name
      cases name

private theorem section_endless (endless : Endless message.body 0) {α : Type}
    {previous : Nat → Except PyException (α × Int)}
    (start : ∀ {left : Nat} {result : α × Int}, previous left = .ok result → result.2 = 0)
    {num left : Nat} {result : List DNSResource × Int}
    (parsed : inFrame (fun frames => do
      let offset := (← previous frames).2
      message.processAnswerStructure offset num frames) left = .ok result) :
    num = 0 ∧ result.2 = 0 := by
  obtain ⟨left, parsed⟩ := inFrame_eq_ok parsed
  obtain ⟨found, before, parsed⟩ := bind_eq_ok parsed
  rw [start before] at parsed
  exact processAnswerStructure_endless endless parsed

private theorem getter_section {α : Type} {entries : Nat → Except PyException (List α × Int)}
    {count frames : Nat} {items : List α}
    (parsed : announced count (inFrame (fun frames => Prod.fst <$> entries frames) frames) =
      .ok items)
    (none : ∀ {left : Nat} {result : List α × Int}, entries left = .ok result → count = 0) :
    count = 0 := by
  unfold announced at parsed
  split at parsed
  · obtain ⟨left, parsed⟩ := inFrame_eq_ok parsed
    obtain ⟨result, found, -⟩ := map_eq_ok parsed
    exact none found
  · omega

theorem sections_endless (endless : Endless message.body 0) {frames : Nat}
    (parsed : message.sections frames = .ok sections) :
    message.getQdcount = 0 ∧ message.getAncount = 0 ∧ message.getNscount = 0 ∧
      message.getArcount = 0 := by
  obtain ⟨questions, getQuestions, parsed⟩ := bind_eq_ok parsed
  obtain ⟨answers, getAnswers, parsed⟩ := bind_eq_ok parsed
  obtain ⟨authoritatives, getAuthoritatives, parsed⟩ := bind_eq_ok parsed
  obtain ⟨additionals, getAdditionals, -⟩ := bind_eq_ok parsed
  have question : ∀ {left : Nat} {result : List DNSQuestion × Int},
      message.questionSection left = .ok result → message.getQdcount = 0 ∧ result.2 = 0 :=
    questionSection_endless endless
  have answer : ∀ {left : Nat} {result : List DNSResource × Int},
      message.answerSection left = .ok result → message.getAncount = 0 ∧ result.2 = 0 :=
    section_endless endless fun found => (question found).2
  have authoritative : ∀ {left : Nat} {result : List DNSResource × Int},
      message.authoritativeSection left = .ok result → message.getNscount = 0 ∧ result.2 = 0 :=
    section_endless endless fun found => (answer found).2
  have additional : ∀ {left : Nat} {result : List DNSResource × Int},
      message.additionalSection left = .ok result → message.getArcount = 0 ∧ result.2 = 0 :=
    section_endless endless fun found => (authoritative found).2
  exact ⟨getter_section getQuestions fun found => (question found).1,
    getter_section getAnswers fun found => (answer found).1,
    getter_section getAuthoritatives fun found => (authoritative found).1,
    getter_section getAdditionals fun found => (additional found).1⟩

end DNS

theorem Datagram.decoded_messageAt {json : JsonLines} {frames bound : Nat} {datagram : Datagram}
    {sections : DNSSections} (port : datagram.sport = 53 ∨ datagram.dport = 53)
    (written : MessageAt datagram.message bound sections) (enough : bound + 5 ≤ frames)
    (printed : (json.dumps (datagram.message.toJson datagram.ts sections)).isSome) :
    datagram.decoded json frames = some sections := by
  unfold Datagram.decoded
  rw [if_pos port, DNS.sections_messageAt written enough]
  exact if_pos printed

/-- A datagram on port 53 with a message that can be printed. -/
structure WrittenDatagram (json : JsonLines) (bound : Nat) extends Datagram where
  sections : DNSSections
  port : toDatagram.sport = 53 ∨ toDatagram.dport = 53
  written : MessageAt toDatagram.message bound sections
  printed : (json.dumps (toDatagram.message.toJson toDatagram.ts sections)).isSome

namespace WrittenDatagram

variable {json : JsonLines} {bound : Nat}

def writtenRows (datagram : WrittenDatagram json bound) : List (Keyed DnsConversationRow) :=
  (datagram.message.rows datagram.sections).map (Keyed.mk datagram.key)

theorem rows_eq (datagram : WrittenDatagram json bound) {frames : Nat}
    (enough : bound + 5 ≤ frames) :
    datagram.toDatagram.rows json frames = datagram.writtenRows := by
  rw [Datagram.rows, Datagram.decoded_messageAt datagram.port datagram.written enough
    datagram.printed]
  rfl

end WrittenDatagram

/-- From the bytes of the datagrams to the rows of the loader: a row for each
question of a query and for each answer of a response, and no others. -/
theorem wire_conversation_rows {json : JsonLines} {bound frames : Nat}
    (enough : bound + 5 ≤ frames) (datagrams : List (WrittenDatagram json bound)) :
    ∃ final, Yields (DNSConversationRecordReader.nextKeyValue json)
      (DNSConversationRecordReader.initializeReader
        (DnsParser.output json frames (datagrams.map WrittenDatagram.toDatagram)))
      (datagrams.flatMap WrittenDatagram.writtenRows) .returnedFalse final := by
  have rows : (datagrams.map WrittenDatagram.toDatagram).flatMap (Datagram.rows json frames) =
      datagrams.flatMap WrittenDatagram.writtenRows := by
    rw [List.flatMap_map]
    exact List.flatMap_congr fun datagram _ => datagram.rows_eq enough
  rw [← rows]
  exact yields_output json frames _ 0

private def labelA : DNSLabel := { text := ascii "a", nonempty := by decide, short := by decide }

private theorem query_messageAt : MessageAt queryDatagram.message 2 querySections := by
  have root : NameAt queryDatagram.message.body 2 [] 3 1 := .root (by decide)
  have name : NameAt queryDatagram.message.body 0 [labelA] 3 2 := .label (by decide) root
  have question : QuestionAt queryDatagram.message.body 2 0
      { qname := dotted [labelA], qtype := 1, qclass := 1 } 7 :=
    .mk name (Nat.le_refl _) (by decide) (by decide)
  exact .mk (.cons question .nil) .nil .nil .nil rfl rfl rfl rfl

theorem wire_conversation_rows_query :
    ∃ final, Yields (DNSConversationRecordReader.nextKeyValue queryJson)
      (DNSConversationRecordReader.initializeReader
        (DnsParser.output queryJson 7 [queryDatagram]))
      [{ key := 1
         tuple := { id := 4660, mode := ascii "query", qname := ascii "a", ipAddress := none
                    ttl := 0 } }] .returnedFalse final := by
  have printed : (queryJson.dumps
      (queryDatagram.message.toJson queryDatagram.ts querySections)).isSome := by
    simp [queryJson]
  obtain ⟨final, yields⟩ := wire_conversation_rows (show 2 + 5 ≤ 7 by decide)
    [{ queryDatagram with
       sections := querySections, port := .inr rfl, written := query_messageAt, printed }]
  refine ⟨final, ?_⟩
  have key : queryDatagram.key = 1 := by
    decide +kernel
  have rows : queryDatagram.message.rows querySections =
      [{ id := 4660, mode := ascii "query", qname := ascii "a", ipAddress := none, ttl := 0 }] := by
    rw [DNS.rows, if_neg (by decide)]
    rfl
  simpa only [List.map_cons, List.map_nil, List.flatMap_cons, List.flatMap_nil, List.append_nil,
    WrittenDatagram.writtenRows, rows, key] using yields

namespace DnsParser

/-- A message whose first name comes back to one of its parts adds nothing to the
output, whatever the recursion limit is. -/
theorem output_circle (json : JsonLines) (frames : Nat) {datagram : Datagram} {steps round : Nat}
    {place : Int} (reached : DNS.partAfter datagram.message.body 0 steps = some place)
    (positive : 0 < round) (circle : DNS.partAfter datagram.message.body place round = some place)
    (entries : 0 < datagram.message.getQdcount + datagram.message.getAncount +
      datagram.message.getNscount + datagram.message.getArcount)
    (before after : List Datagram) :
    output json frames (before ++ datagram :: after) = output json frames (before ++ after) := by
  have endless := DNS.endless_of_circle reached positive circle
  have missing : datagram.decoded json frames = none := by
    unfold Datagram.decoded
    split
    · cases parsed : datagram.message.sections frames with
      | error exception => rfl
      | ok sections =>
          obtain ⟨noQuestion, noAnswer, noAuthoritative, noAdditional⟩ :=
            DNS.sections_endless endless parsed
          omega
    · rfl
  unfold output
  rw [List.flatMap_append, List.flatMap_append, List.flatMap_cons,
    udpHandler_of_not_decoded missing, List.nil_append]

def circleDatagram : Datagram where
  sport := 40000
  dport := 53
  payload := [0x12, 0x34, 1, 0, 0, 1, 0, 0, 0, 0, 0, 0, 0xC0, 0x0C, 0, 1, 0, 1]
  ts := 1

theorem output_circle_sample :
    output queryJson 1000 [circleDatagram, queryDatagram] = output queryJson 1000 [queryDatagram] :=
  output_circle queryJson 1000
    (show DNS.partAfter circleDatagram.message.body 0 0 = some 0 from rfl) Nat.one_pos (by decide)
    (by decide) [] [queryDatagram]

end DnsParser

end Packetpig
