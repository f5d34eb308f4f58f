/-
The rows of DNSConversationRecordReader over the output of dns_parser.py: what
each datagram contributes, in the order of the datagrams.
-/

import Packetpig.Dns.DnsParser
import Packetpig.Dns.DNSConversationRecordReader

namespace Packetpig

open Text

structure DNSSections where
  questions : List DNSQuestion
  answers : List DNSResource
  authoritatives : List DNSResource
  additionals : List DNSResource

/-- A section that the header announces as empty has no entries. -/
def announced {α : Type} (count : Nat) (entries : Except PyException (List α)) :
    Except PyException (List α) :=
  if count > 0 then entries else .ok []

def DNS.sections (message : DNS) (frames : Nat) : Except PyException DNSSections := do
  let questions ← announced message.getQdcount (message.getQuestions frames)
  let answers ← announced message.getAncount (message.getAnswers frames)
  let authoritatives ← announced message.getNscount (message.getAuthoritatives frames)
  let additionals ← announced message.getArcount (message.getAdditionals frames)
  return { questions, answers, authoritatives, additionals }

theorem announced_of_ok {α : Type} {count : Nat} {entries : Except PyException (List α)}
    {items : List α} (parsed : entries = .ok items) (empty : count = 0 → items = []) :
    announced count entries = .ok items := by
  by_cases some : count > 0
  · rw [announced, if_pos some, parsed]
  · rw [announced, if_neg some, empty (by omega)]

theorem DNS.sections_of_getters {message : DNS} {frames : Nat} {sections : DNSSections}
    (questions : message.getQuestions frames = .ok sections.questions)
    (answers : message.getAnswers frames = .ok sections.answers)
    (authoritatives : message.getAuthoritatives frames = .ok sections.authoritatives)
    (additionals : message.getAdditionals frames = .ok sections.additionals) :
    message.sections frames = .ok sections := by
  have noAnswers : message.getAncount = 0 → sections.answers = [] := by
    intro empty
    obtain ⟨offset, left, after, processed⟩ := getAnswers_processed answers
    exact processAnswerStructure_zero (empty ▸ processed)
  have noAuthoritatives : message.getNscount = 0 → sections.authoritatives = [] := by
    intro empty
    obtain ⟨offset, left, after, processed⟩ := getAuthoritatives_processed authoritatives
    exact processAnswerStructure_zero (empty ▸ processed)
  have noAdditionals : message.getArcount = 0 → sections.additionals = [] := by
    intro empty
    obtain ⟨offset, left, after, processed⟩ := getAdditionals_processed additionals
    exact processAnswerStructure_zero (empty ▸ processed)
  rw [DNS.sections, announced_of_ok questions fun empty => getQuestions_nil empty questions,
    announced_of_ok answers noAnswers, announced_of_ok authoritatives noAuthoritatives,
    announced_of_ok additionals noAdditionals]
  rfl

def DNS.isResponse (message : DNS) : Prop := message.getFlags &&& DNSFlags.QR_RESPONSE ≠ 0

instance (message : DNS) : Decidable message.isResponse :=
  inferInstanceAs (Decidable (message.getFlags &&& DNSFlags.QR_RESPONSE ≠ 0))

def DNS.mode (message : DNS) : Bytes :=
  if message.isResponse then ascii "response" else ascii "query"

def DNSQuestion.toJson (question : DNSQuestion) : Json :=
  .object
    [(ascii "qname", .text question.qname), (ascii "qtype", .int question.qtype),
      (ascii "qclass", .int question.qclass)]

def DNSResource.toJson (resource : DNSResource) : Json :=
  .object
    [(ascii "qname", .text resource.qname), (ascii "qtype", .int resource.qtype),
      (ascii "qclass", .int resource.qclass), (ascii "qttl", .int resource.qttl),
      (ascii "qrdata", .object resource.qrdata)]

def DNS.toJson (message : DNS) (ts : Rat) (sections : DNSSections) : Json :=
  .object
    [(ascii "ts", .float ts), (ascii "mode", .text message.mode),
      (ascii "id", .int message.getTransactionId),
      (ascii "questions", .array (sections.questions.map DNSQuestion.toJson)),
      (ascii "answers", .array (sections.answers.map DNSResource.toJson)),
      (ascii "authoritatives", .array (sections.authoritatives.map DNSResource.toJson)),
      (ascii "additionals", .array (sections.additionals.map DNSResource.toJson))]

/-- One row a question for a query, one row an answer for a response. -/
def DNS.rows (message : DNS) (sections : DNSSections) : List DnsConversationRow :=
  if message.isResponse then
    sections.answers.map fun answer =>
      { id := message.getTransactionId, mode := ascii "response", qname := answer.qname,
        ipAddress := answer.ipAddress, ttl := answer.qttl }
  else
    sections.questions.map fun question =>
      { id := message.getTransactionId, mode := ascii "query", qname := question.qname,
        ipAddress := none, ttl := 0 }

namespace Datagram

def message (datagram : Datagram) : DNS := DNS.new datagram.payload

def key (datagram : Datagram) : Int := (Json.float datagram.ts).getLongValue

/-- The sections of a datagram on port 53, if they decode and can be printed. -/
def decoded (json : JsonLines) (frames : Nat) (datagram : Datagram) : Option DNSSections :=
  if datagram.sport = 53 ∨ datagram.dport = 53 then
    match datagram.message.sections frames with
    | .ok sections =>
        if (json.dumps (datagram.message.toJson datagram.ts sections)).isSome then some sections
        else none
    | .error _ => none
  else none

def rows (json : JsonLines) (frames : Nat) (datagram : Datagram) :
    List (Keyed DnsConversationRow) :=
  match datagram.decoded json frames with
  | some sections => (datagram.message.rows sections).map (Keyed.mk datagram.key)
  | none => []

end Datagram

/-! ### The script -/

namespace DnsParser

theorem whilePop_reverse {α β : Type} (body : β → α → Except PyException β) (items : List α)
    (result : β) :
    whilePop body items.length items.reverse result = items.foldlM body result := by
  induction items generalizing result with
  | nil => rfl
  | cons item items ih =>
      simp only [List.length_cons, List.reverse_cons, whilePop, List.getLast?_concat,
        List.dropLast_concat, List.foldlM_cons, ih]

private theorem popKeys_reverse (values : List Json) (keys : List Bytes)
    (info : List (Bytes × Json)) (sameLength : keys.length = values.length) (distinct : keys.Nodup)
    (fresh : ∀ field ∈ info, field.1 ∉ keys) :
    popKeys values.reverse keys info = .ok (keys.zip values ++ info) := by
  induction values using List.reverseRecOn generalizing keys info with
  | nil =>
      rw [List.length_nil, List.length_eq_zero_iff] at sameLength
      subst sameLength
      rfl
  | append_singleton values value ih =>
      obtain ⟨init, key, rfl⟩ : ∃ init key, keys = init ++ [key] := by
        rcases List.eq_nil_or_concat keys with rfl | ⟨init, key, same⟩
        · simp at sameLength
        · exact ⟨init, key, by simpa using same⟩
      have initLength : init.length = values.length := by simpa using sameLength
      obtain ⟨initDistinct, -, apart⟩ := List.nodup_append.mp distinct
      have keyFresh : key ∉ init := fun member => apart key member key (by simp) rfl
      have unchanged : Json.set key value info = (key, value) :: info := by
        rw [Json.set, List.filter_eq_self.mpr]
        intro field member
        simp only [ne_eq, decide_eq_true_eq]
        intro same
        exact fresh field member (by simp [same])
      rw [List.reverse_append, List.reverse_singleton, List.singleton_append, popKeys,
        List.getLast?_concat]
      simp only [List.dropLast_concat, unchanged]
      rw [ih init _ initLength initDistinct, List.zip_append initLength, List.append_assoc]
      · rfl
      · intro field member
        rcases List.mem_cons.mp member with rfl | later
        · exact keyFresh
        · exact fun inInit => fresh field later (List.mem_append_left _ inInit)

theorem addSection_eq {α : Type} (count : Nat) (entries : Except PyException (List α))
    (keys : List Bytes) (values : α → List Json) (distinct : keys.Nodup)
    (sameLength : ∀ entry, keys.length = (values entry).length) :
    addSection count entries keys values =
      (List.map fun entry => Json.object (keys.zip (values entry))) <$>
        announced count entries := by
  have added : ∀ (items : List α) (res : List Json),
      items.foldlM (fun res entry => addValues keys res (values entry)) res =
        .ok (res ++ items.map fun entry => Json.object (keys.zip (values entry))) := by
    intro items
    induction items with
    | nil =>
        intro res
        simp only [List.foldlM_nil, List.map_nil, List.append_nil]
        rfl
    | cons entry items ih =>
        intro res
        have named := popKeys_reverse (values entry) keys [] (sameLength entry) distinct (by simp)
        have one : addValues keys res (values entry) =
            .ok (res ++ [.object (keys.zip (values entry))]) := by
          rw [addValues, named, List.append_nil]
          rfl
        rw [List.foldlM_cons, one]
        change items.foldlM _ _ = _
        rw [ih, List.append_assoc, List.map_cons, List.singleton_append]
  by_cases empty : count > 0
  · rw [addSection, if_pos empty, announced, if_pos empty]
    cases entries with
    | error exception => rfl
    | ok entries =>
        change whilePop _ entries.length entries.reverse [] = _
        rw [whilePop_reverse, added]
        rfl
  · rw [addSection, if_neg empty, announced, if_neg empty]
    rfl

theorem result_eq (frames : Nat) (ts : Rat) (d : DNS) :
    result frames ts d = d.toJson ts <$> d.sections frames := by
  have question : (fun entry => Json.object (questionKeys.zip (questionValues entry))) =
      DNSQuestion.toJson := rfl
  have resource : (fun entry => Json.object (resourceKeys.zip (resourceValues entry))) =
      DNSResource.toJson := rfl
  rw [result, DNS.sections]
  rw [addSection_eq _ _ questionKeys questionValues (by decide) fun _ => rfl]
  simp only [addSection_eq _ _ resourceKeys resourceValues (by decide) fun _ => rfl, question,
    resource]
  cases announced d.getQdcount (d.getQuestions frames) with
  | error exception => rfl
  | ok questions =>
      cases announced d.getAncount (d.getAnswers frames) with
      | error exception => rfl
      | ok answers =>
          cases announced d.getNscount (d.getAuthoritatives frames) with
          | error exception => rfl
          | ok authoritatives =>
              cases announced d.getArcount (d.getAdditionals frames) with
              | error exception => rfl
              | ok additionals => rfl

theorem handle_eq (json : JsonLines) (frames : Nat) {datagram : Datagram}
    (port : datagram.sport = 53 ∨ datagram.dport = 53) :
    handle json frames datagram =
      match datagram.message.sections frames with
      | .error exception => .error exception
      | .ok sections =>
          match json.dumps (datagram.message.toJson datagram.ts sections) with
          | some line => .ok (some line)
          | none => .error .valueError := by
  rw [handle, if_pos port, result_eq, Datagram.message]
  cases (DNS.new datagram.payload).sections frames with
  | error exception => rfl
  | ok sections => rfl

theorem udpHandler_of_decoded {json : JsonLines} {frames : Nat} {datagram : Datagram}
    {sections : DNSSections} (found : datagram.decoded json frames = some sections) :
    datagram.message.sections frames = .ok sections ∧
      ∃ line, json.dumps (datagram.message.toJson datagram.ts sections) = some line ∧
        udpHandler json frames datagram = line ++ [lineFeed] := by
  by_cases port : datagram.sport = 53 ∨ datagram.dport = 53
  · rw [Datagram.decoded, if_pos port] at found
    cases parsed : datagram.message.sections frames with
    | error exception => simp only [parsed, reduceCtorEq] at found
    | ok parsedSections =>
        simp only [parsed, Option.ite_none_right_eq_some, Option.isSome_iff_exists] at found
        rcases found with ⟨⟨line, printed⟩, same⟩
        cases same
        refine ⟨rfl, line, printed, ?_⟩
        simp only [udpHandler, handle_eq json frames port, parsed, printed]
  · rw [Datagram.decoded, if_neg port] at found
    cases found

theorem udpHandler_of_not_decoded {json : JsonLines} {frames : Nat} {datagram : Datagram}
    (missing : datagram.decoded json frames = none) : udpHandler json frames datagram = [] := by
  by_cases port : datagram.sport = 53 ∨ datagram.dport = 53
  · rw [Datagram.decoded, if_pos port] at missing
    cases parsed : datagram.message.sections frames with
    | error exception => simp only [udpHandler, handle_eq json frames port, parsed]
    | ok sections =>
        have unprinted : json.dumps (datagram.message.toJson datagram.ts sections) = none := by
          simpa [parsed] using missing
        simp only [udpHandler, handle_eq json frames port, parsed, unprinted]
  · rw [udpHandler, handle, if_neg port]

end DnsParser

/-! ### The reader -/

namespace DNSConversationRecordReader

theorem addTuples_map {α : Type} (tuple : Json → Except JavaException DnsConversationRow)
    (entry : α → Json) (row : α → DnsConversationRow) (items : List α)
    (made : ∀ item ∈ items, tuple (entry item) = .ok (row item))
    (tupleQueue : List DnsConversationRow) :
    addTuples tuple (items.map entry) tupleQueue = (.ok (), tupleQueue ++ items.map row) := by
  induction items generalizing tupleQueue with
  | nil => rw [List.map_nil, List.map_nil, List.append_nil, addTuples]
  | cons item items ih =>
      obtain ⟨here, later⟩ := List.forall_mem_cons.mp made
      simp only [List.map_cons, addTuples, here]
      rw [ih later, List.append_assoc, List.singleton_append]

theorem getIpAddress_toJson (answer : DNSResource) :
    getIpAddress answer.toJson = answer.ipAddress := by
  have qrdata : answer.toJson.get (ascii "qrdata") = some (.object answer.qrdata) := rfl
  have address : (Json.object answer.qrdata).get (ascii "IPAddress") =
      answer.qrdata.lookup (ascii "IPAddress") := rfl
  rw [DNSResource.ipAddress, ← address]
  simp only [getIpAddress, qrdata]
  cases (Json.object answer.qrdata).get (ascii "IPAddress") with
  | none => rfl
  | some found => rfl

theorem queueTuples_message (message : DNS) (ts : Rat) (sections : DNSSections)
    (wellFormed : ∀ answer ∈ sections.answers, answer.WellFormed)
    (tupleQueue : List DnsConversationRow) :
    queueTuples (message.toJson ts sections) tupleQueue =
      (.ok (), tupleQueue ++ message.rows sections) := by
  have id : (Json.int message.getTransactionId).getIntValue = message.getTransactionId := by
    have small := message.getWord_lt 0
    exact Json.getIntValue_natCast (by unfold DNS.getTransactionId; omega)
  have idAt : (message.toJson ts sections).get (ascii "id") =
      some (.int message.getTransactionId) := rfl
  have modeAt : (message.toJson ts sections).get (ascii "mode") = some (.text message.mode) := rfl
  have questionsAt : (message.toJson ts sections).get (ascii "questions") =
      some (.array (sections.questions.map DNSQuestion.toJson)) := rfl
  have answersAt : (message.toJson ts sections).get (ascii "answers") =
      some (.array (sections.answers.map DNSResource.toJson)) := rfl
  by_cases response : message.isResponse
  · have mode : message.mode = ascii "response" := if_pos response
    have different : ascii "response" ≠ ascii "query" := by decide
    have made : ∀ answer ∈ sections.answers,
        answerTuple message.getTransactionId (ascii "response") answer.toJson =
          .ok { id := message.getTransactionId, mode := ascii "response", qname := answer.qname,
                ipAddress := answer.ipAddress, ttl := answer.qttl } := by
      intro answer member
      have ttl : (Json.int answer.qttl).getLongValue = answer.qttl := by
        have small := (wellFormed answer member).qttl
        exact Json.getLongValue_natCast (by omega)
      have tuple : answerTuple message.getTransactionId (ascii "response") answer.toJson =
          .ok { id := message.getTransactionId, mode := ascii "response", qname := answer.qname,
                ipAddress := getIpAddress answer.toJson,
                ttl := (Json.int answer.qttl).getLongValue } := rfl
      rw [tuple, ttl, getIpAddress_toJson]
    simp only [queueTuples, idAt, modeAt, answersAt, id, Json.getTextValue, mode, different,
      if_false, if_true, Json.getElements]
    rw [addTuples_map _ _ _ _ made, DNS.rows, if_pos response]
  · have mode : message.mode = ascii "query" := if_neg response
    simp only [queueTuples, idAt, modeAt, questionsAt, id, Json.getTextValue, mode, if_true,
      Json.getElements]
    rw [DNS.rows, if_neg response]
    exact addTuples_map _ _ _ _ (fun _ _ => rfl) _

theorem processNextLine_message {json : JsonLines} {message : DNS} {ts : Rat}
    {sections : DNSSections} {line : Bytes}
    (printed : json.dumps (message.toJson ts sections) = some line)
    (wellFormed : ∀ answer ∈ sections.answers, answer.WellFormed) (rest : Bytes)
    (tupleQueue : List DnsConversationRow) (key : Int) :
    processNextLine json { reader := line ++ lineFeed :: rest, tupleQueue, key } =
      (.ok true,
        { reader := rest
          tupleQueue := tupleQueue ++ message.rows sections
          key := (Json.float ts).getLongValue }) := by
  obtain ⟨noFeed, noReturn⟩ := json.plain _ _ printed
  have taken : JavaText.readLine (line ++ lineFeed :: rest) = some (line, rest) := by
    rw [JavaText.readLine, if_neg (by simp), JavaText.takeLine_append line rest noFeed noReturn]
  have tsAt : (message.toJson ts sections).get (ascii "ts") = some (.float ts) := rfl
  simp only [processNextLine, taken, json.readValue_dumps _ _ printed, tsAt,
    queueTuples_message message ts sections wellFormed]

end DNSConversationRecordReader

theorem Datagram.answers_wellFormed {datagram : Datagram} {frames : Nat} {sections : DNSSections}
    (parsed : datagram.message.sections frames = .ok sections) :
    ∀ answer ∈ sections.answers, answer.WellFormed := by
  obtain ⟨questions, -, parsed⟩ := bind_eq_ok parsed
  obtain ⟨answers, answersParsed, parsed⟩ := bind_eq_ok parsed
  obtain ⟨authoritatives, -, parsed⟩ := bind_eq_ok parsed
  obtain ⟨additionals, -, parsed⟩ := bind_eq_ok parsed
  cases parsed
  unfold announced at answersParsed
  split at answersParsed
  · exact DNS.getAnswers_wellFormed answersParsed
  · cases answersParsed
    exact List.forall_mem_nil _

theorem yields_output (json : JsonLines) (frames : Nat) (datagrams : List Datagram)
    (key : Int) :
    ∃ final, Yields (DNSConversationRecordReader.nextKeyValue json)
      { reader := DnsParser.output json frames datagrams, tupleQueue := [], key }
      (datagrams.flatMap (Datagram.rows json frames)) .returnedFalse final := by
  induction datagrams generalizing key with
  | nil => exact ⟨_, .stop rfl⟩
  | cons datagram datagrams ih =>
      have output : DnsParser.output json frames (datagram :: datagrams) =
          DnsParser.udpHandler json frames datagram ++ DnsParser.output json frames datagrams :=
        List.flatMap_cons
      cases found : datagram.decoded json frames with
      | none =>
          obtain ⟨final, rest⟩ := ih key
          refine ⟨final, ?_⟩
          rw [output, DnsParser.udpHandler_of_not_decoded found, List.nil_append,
            List.flatMap_cons, Datagram.rows, found]
          exact rest
      | some sections =>
          obtain ⟨parsed, line, printed, handled⟩ := DnsParser.udpHandler_of_decoded found
          obtain ⟨final, rest⟩ := ih datagram.key
          refine ⟨final, ?_⟩
          have processed := DNSConversationRecordReader.processNextLine_message printed
            (Datagram.answers_wellFormed parsed) (DnsParser.output json frames datagrams) [] key
          rw [output, handled, List.append_assoc, List.singleton_append, List.flatMap_cons,
            Datagram.rows, found]
          refine .congr_state
            (DNSConversationRecordReader.nextKeyValue_line json rfl processed) ?_
          exact .of_queue (Keyed.mk datagram.key)
            (fun tupleQueue => DNSConversationRecordReader.mk
              (DnsParser.output json frames datagrams) tupleQueue datagram.key)
            rest (fun _ _ => rfl) (datagram.message.rows sections)

/-- The rows of the reader over the output of the script are those of the
datagrams, in order and nothing else. -/
theorem dns_conversation_rows (json : JsonLines) (frames : Nat) (datagrams : List Datagram) :
    ∃ final, Yields (DNSConversationRecordReader.nextKeyValue json)
      (DNSConversationRecordReader.initializeReader (DnsParser.output json frames datagrams))
      (datagrams.flatMap (Datagram.rows json frames)) .returnedFalse final :=
  yields_output json frames datagrams 0

def queryDatagram : Datagram where
  sport := 40000
  dport := 53
  payload := [0x12, 0x34, 1, 0, 0, 1, 0, 0, 0, 0, 0, 0, 1, 97, 0, 0, 1, 0, 1]
  ts := 3 / 2

def querySections : DNSSections where
  questions := [{ qname := ascii "a", qtype := 1, qclass := 1 }]
  answers := []
  authoritatives := []
  additionals := []

def queryLine : Bytes :=
  ascii "\x7b\"ts\": 1.5, \"answers\": [], \"authoritatives\": [], \"mode\": \"query\", " ++
    ascii "\"questions\": [\x7b\"qclass\": 1, \"qtype\": 1, \"qname\": \"a\"\x7d], " ++
    ascii "\"id\": 4660, \"additionals\": []\x7d"

open Classical in
noncomputable def queryJson : JsonLines where
  dumps value :=
    if value = queryDatagram.message.toJson queryDatagram.ts querySections then some queryLine
    else none
  readValue line :=
    if line = queryLine then some (queryDatagram.message.toJson queryDatagram.ts querySections)
    else none
  plain := by
    intro value line printed
    cases (Option.ite_none_right_eq_some.mp printed).2
    decide
  readValue_dumps := by
    intro value line printed
    obtain ⟨rfl, same⟩ := Option.ite_none_right_eq_some.mp printed
    cases same
    exact if_pos rfl

set_option maxRecDepth 8000 in
theorem dns_conversation_rows_query :
    ∃ final, Yields (DNSConversationRecordReader.nextKeyValue queryJson)
      (DNSConversationRecordReader.initializeReader
        (DnsParser.output queryJson 990 [queryDatagram]))
      [⟨1, { id := 0x1234, mode := ascii "query", qname := ascii "a", ipAddress := none,
             ttl := 0 }⟩]
      .returnedFalse final := by
  have sections : queryDatagram.message.sections 990 = .ok querySections := rfl
  have printed : queryJson.dumps
      (queryDatagram.message.toJson queryDatagram.ts querySections) = some queryLine := if_pos rfl
  have decoded : queryDatagram.decoded queryJson 990 = some querySections := by
    rw [Datagram.decoded, if_pos (by decide), sections]
    simp only [printed, Option.isSome_some, if_true]
  have key : queryDatagram.key = 1 := by decide +kernel
  have rows : [queryDatagram].flatMap (Datagram.rows queryJson 990) =
      [⟨1, { id := 0x1234, mode := ascii "query", qname := ascii "a", ipAddress := none,
             ttl := 0 }⟩] := by
    rw [List.flatMap_singleton, Datagram.rows, decoded, key]
    rfl
  rw [← rows]
  exact dns_conversation_rows queryJson 990 [queryDatagram]

end Packetpig
