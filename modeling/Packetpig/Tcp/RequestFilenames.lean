/-
The file names that HttpBodyDumpEmitter prints. The request of a response is
looked for one place before it, but the handler lists all requests of a
connection before all its responses.
-/

import Packetpig.Tcp.HttpBodyDumpEmitter
import Packetpig.Tcp.MalformedHttp

namespace Packetpig

open Text

namespace HttpBodyDumpEmitter

/-- The messages of a connection in the order in which `process` lists them. -/
def conversation (requests responses : List HttpParts) : List HttpRecord :=
  requests.map (HttpParts.record .s) ++ responses.map (HttpParts.record .c)

def targetName (status : Bytes) : Bytes :=
  if nameFromStatus status = [] then ascii "-" else nameFromStatus status

/-- The name that the row of response number `i` should carry. -/
def expectedName (requests : List HttpParts) (i : Nat) : Bytes :=
  requests[i]?.elim (ascii "-") fun request => targetName request.status

/-- The name inferred from the message in front of response number `i`; in front
of the very first message stands the last one. -/
def precedingName (requests responses : List HttpParts) (i : Nat) : Bytes :=
  (if i = 0 then requests.getLast?.or responses.getLast? else responses[i - 1]?).elim
    (ascii "-") fun other => targetName other.status

def accepts (settings : BodyDumpSettings) (payload : Bytes) : Bool :=
  match settings.mimeFromFile payload with
  | .ok mime =>
      !rejects settings.mimeType (mime.getD []) ((settings.guessExtension (mime.getD [])).getD [])
  | .error _ => false

/-- The messages whose rows are printed, with their places in the list. -/
def accepted (settings : BodyDumpSettings) (http : List HttpRecord) : List (HttpRecord × Nat) :=
  http.zipIdx.filter fun entry => accepts settings entry.1.payload

/-- Each printed row of a response ends with the name of its request. -/
def NamesRight (settings : BodyDumpSettings) (requests responses : List HttpParts)
    (printed : List (List Bytes)) : Prop :=
  List.Forall₂
    (fun entry row => entry.1.direction = .c →
      row.getLast? = some (expectedName requests (entry.2 - requests.length)))
    (accepted settings (conversation requests responses)) printed

theorem conversation_response (requests responses : List HttpParts) (i : Nat) :
    (conversation requests responses)[requests.length + i]? =
      responses[i]?.map (HttpParts.record .c) := by
  rw [conversation, List.getElem?_append_right (by simp), List.length_map,
    Nat.add_sub_cancel_left, List.getElem?_map]

private theorem exists_response {requests responses : List HttpParts} {offset : Nat}
    {convo : HttpRecord} (found : (conversation requests responses)[offset]? = some convo)
    (isResponse : convo.direction = .c) :
    ∃ i response, offset = requests.length + i ∧ responses[i]? = some response ∧
      convo = response.record .c := by
  by_cases inRequests : offset < requests.length
  · rw [conversation, List.getElem?_append_left (by simpa using inRequests), List.getElem?_map,
      Option.map_eq_some_iff] at found
    rcases found with ⟨request, -, rfl⟩
    cases isResponse
  · obtain ⟨i, rfl⟩ := Nat.exists_eq_add_of_le (Nat.le_of_not_lt inRequests)
    rw [conversation_response, Option.map_eq_some_iff] at found
    rcases found with ⟨response, found, rfl⟩
    exact ⟨i, response, rfl, found, rfl⟩

private theorem exists_preceding (requests responses : List HttpParts) {i : Nat}
    {response : HttpParts} (found : responses[i]? = some response) :
    ∃ (other : HttpParts) (direction : Direction),
      item (conversation requests responses) (((requests.length + i : Nat) : Int) - 1) =
        some (other.record direction) ∧
      precedingName requests responses i = targetName other.status := by
  have inside : i < responses.length := (List.getElem?_eq_some_iff.mp found).1
  rw [item_pred, precedingName]
  cases i with
  | succ i =>
      have before : i < responses.length := by omega
      refine ⟨responses[i], .c, ?_, ?_⟩
      · rw [if_neg (by omega), Nat.add_succ_sub_one, conversation_response,
          List.getElem?_eq_getElem before]
        rfl
      · simp [List.getElem?_eq_getElem before]
  | zero =>
      rcases List.eq_nil_or_concat' requests with rfl | ⟨init, last, rfl⟩
      · obtain ⟨init, last, rfl⟩ : ∃ init last, responses = init ++ [last] :=
          (List.eq_nil_or_concat' responses).resolve_left (List.ne_nil_of_length_pos inside)
        exact ⟨last, .c, by simp [conversation], by simp⟩
      · refine ⟨last, .s, ?_, by simp⟩
        simp [conversation]

theorem requestFilename_response (requests responses : List HttpParts) {i : Nat}
    {response : HttpParts} (found : responses[i]? = some response) :
    requestFilename (conversation requests responses) (requests.length + i)
      (response.record .c) = precedingName requests responses i := by
  obtain ⟨other, direction, itemAt, preceding⟩ := exists_preceding requests responses found
  have isResponse : (response.record .c).direction = .c := rfl
  simp only [requestFilename, isResponse, if_true, itemAt, Option.elim_some, preceding, targetName]
  rfl

section Rows

variable {settings : BodyDumpSettings} {base : List Bytes} {http : List HttpRecord}

def created (settings : BodyDumpSettings) (state : BodyDumpState) (convo : HttpRecord) :
    Bytes × Bytes :=
  (settings.mkstemp (state.files.map Prod.fst), convo.payload)

/-- What one message does to the files and the rows. -/
inductive Dumped (settings : BodyDumpSettings) (base : List Bytes) (http : List HttpRecord)
    (state : BodyDumpState) (convo : HttpRecord) (offset : Nat) : BodyDumpState → Prop
  | rejected (no : accepts settings convo.payload = false) :
      Dumped settings base http state convo offset
        { state with files := created settings state convo :: state.files }
  | extracted (yes : accepts settings convo.payload = true)
      (extract : settings.extractFiles = true) (filetype mime ext : Bytes) :
      Dumped settings base http state convo offset
        { files := created settings state convo :: state.files
          printed := state.printed ++
            [base ++ examinedColumns settings filetype mime ext convo.payload ++
              [(created settings state convo).1, requestFilename http offset convo]] }
  | removed (yes : accepts settings convo.payload = true)
      (keep : settings.extractFiles = false) (filetype mime ext : Bytes) :
      Dumped settings base http state convo offset
        { state with
          printed := state.printed ++
            [base ++ examinedColumns settings filetype mime ext convo.payload] }

private theorem files_unlink {name : Bytes} {files : List (Bytes × Bytes)}
    (fresh : name ∉ files.map Prod.fst) (payload : Bytes) :
    ((name, payload) :: files).filter (fun file => file.1 ≠ name) = files := by
  have others : ∀ file ∈ files, file.1 ≠ name := by
    intro file member same
    exact fresh (same ▸ List.mem_map_of_mem member)
  rw [List.filter_cons_of_neg (by simp), List.filter_eq_self.mpr (by simpa using others)]

theorem dumped_of_eq_ok {state after : BodyDumpState} {convo : HttpRecord} {offset : Nat}
    (done : dump settings base http state (convo, offset) = .ok after) :
    Dumped settings base http state convo offset after := by
  obtain ⟨mime, examined, done⟩ := bind_eq_ok done
  obtain ⟨filetype, described, done⟩ := bind_eq_ok done
  split at done
  · rename_i rejected
    cases done
    exact .rejected (by simp [accepts, examined, rejected])
  · rename_i kept
    have yes : accepts settings convo.payload = true := by simp [accepts, examined, kept]
    split at done
    · rename_i extract
      cases done
      exact .extracted yes extract _ _ _
    · rename_i keep
      cases done
      rw [files_unlink (settings.mkstemp_fresh _)]
      exact .removed yes (by simpa using keep) _ _ _

theorem dump_eq_ok (extract : settings.extractFiles = true) {state after : BodyDumpState}
    {entry : HttpRecord × Nat} (done : dump settings base http state entry = .ok after) :
    (accepts settings entry.1.payload = false ∧ after.printed = state.printed) ∨
      (accepts settings entry.1.payload = true ∧ ∃ row, after.printed = state.printed ++ [row] ∧
        row.getLast? = some (requestFilename http entry.2 entry.1)) := by
  cases dumped_of_eq_ok done with
  | rejected no => exact .inl ⟨no, rfl⟩
  | extracted yes _ filetype mime ext =>
      refine .inr ⟨yes, _, rfl, ?_⟩
      rw [List.getLast?_append_of_ne_nil _ (List.cons_ne_nil _ _)]
      rfl
  | removed _ keep => exact absurd (extract.symm.trans keep) (by decide)

theorem foldlM_dump (extract : settings.extractFiles = true) (entries : List (HttpRecord × Nat))
    {state final : BodyDumpState}
    (dumped : entries.foldlM (dump settings base http) state = .ok final) :
    ∃ rows, final.printed = state.printed ++ rows ∧
      List.Forall₂ (fun entry row => row.getLast? = some (requestFilename http entry.2 entry.1))
        (entries.filter fun entry => accepts settings entry.1.payload) rows := by
  apply foldlM_invariant
    (fun seen after => ∃ rows, after.printed = state.printed ++ rows ∧
      List.Forall₂ (fun entry row => row.getLast? = some (requestFilename http entry.2 entry.1))
        (seen.filter fun entry => accepts settings entry.1.payload) rows)
    _ _ dumped
  · intro seen before entry after sofar here
    rcases sofar with ⟨rows, printed, right⟩
    rcases dump_eq_ok extract here with ⟨rejected, same⟩ | ⟨isAccepted, row, more, last⟩
    · refine ⟨rows, by rw [same, printed], ?_⟩
      rw [List.filter_append, List.filter_singleton, rejected, cond_false, List.append_nil]
      exact right
    · refine ⟨rows ++ [row], by rw [more, printed, List.append_assoc], ?_⟩
      rw [List.filter_append, List.filter_singleton, isAccepted, cond_true]
      exact List.rel_append right (.cons last .nil)
  · exact ⟨[], (List.append_nil _).symm, .nil⟩

end Rows

private theorem forall₂_last_iff {entries : List (HttpRecord × Nat)} {rows : List (List Bytes)}
    {name : HttpRecord × Nat → Bytes} (named : List.Forall₂
      (fun entry row => row.getLast? = some (name entry)) entries rows)
    (asked : HttpRecord × Nat → Prop) (expected : HttpRecord × Nat → Bytes) :
    List.Forall₂ (fun entry row => asked entry → row.getLast? = some (expected entry))
        entries rows ↔
      ∀ entry ∈ entries, asked entry → name entry = expected entry := by
  induction named with
  | nil => simp
  | cons here _ ih => rw [List.forall₂_cons, ih, List.forall_mem_cons, here, Option.some.injEq]

section Emit

variable {settings : BodyDumpSettings} (extract : settings.extractFiles = true)
  {files : List (Bytes × Bytes)} {base : List Bytes} {requests responses : List HttpParts}
  {final : BodyDumpState}
  (emitted : emit settings files base (conversation requests responses) = .ok final)

include extract emitted

private theorem namesRight_iff_accepted : NamesRight settings requests responses final.printed ↔
    ∀ entry ∈ accepted settings (conversation requests responses), entry.1.direction = .c →
      requestFilename (conversation requests responses) entry.2 entry.1 =
        expectedName requests (entry.2 - requests.length) := by
  obtain ⟨rows, printed, named⟩ := foldlM_dump extract _ emitted
  rw [List.nil_append] at printed
  rw [NamesRight, printed]
  exact forall₂_last_iff named _ _

theorem precedingName_of_namesRight
    (right : NamesRight settings requests responses final.printed) {i : Nat}
    {response : HttpParts} (found : responses[i]? = some response)
    (isAccepted : accepts settings response.payload = true) :
    precedingName requests responses i = expectedName requests i := by
  have member : (response.record .c, requests.length + i) ∈
      accepted settings (conversation requests responses) := by
    rw [accepted, List.mem_filter, List.mem_zipIdx_iff_getElem?]
    refine ⟨?_, isAccepted⟩
    rw [conversation_response, found]
    rfl
  have same := (namesRight_iff_accepted extract emitted).mp right _ member rfl
  rwa [requestFilename_response requests responses found, Nat.add_sub_cancel_left] at same

theorem namesRight_of_precedingName
    (right : ∀ i response, responses[i]? = some response →
      accepts settings response.payload = true →
      precedingName requests responses i = expectedName requests i) :
    NamesRight settings requests responses final.printed := by
  rw [namesRight_iff_accepted extract emitted]
  intro entry member isResponse
  rw [accepted, List.mem_filter, List.mem_zipIdx_iff_getElem?] at member
  rcases member with ⟨found, isAccepted⟩
  obtain ⟨i, response, place, here, same⟩ := exists_response found isResponse
  rw [same, place, requestFilename_response requests responses here, Nat.add_sub_cancel_left]
  rw [same] at isAccepted
  exact right i response here isAccepted

end Emit

/-- With file extraction, the printed names are right exactly if the message in
front of each response that is printed gives the name of its request. -/
theorem namesRight_iff (settings : BodyDumpSettings) (extract : settings.extractFiles = true)
    (files : List (Bytes × Bytes)) (base : List Bytes) (requests responses : List HttpParts)
    (final : BodyDumpState)
    (emitted : emit settings files base (conversation requests responses) = .ok final) :
    NamesRight settings requests responses final.printed ↔
      ∀ i response, responses[i]? = some response → accepts settings response.payload = true →
        precedingName requests responses i = expectedName requests i := by
  constructor
  · intro right i response found isAccepted
    exact precedingName_of_namesRight extract emitted right found isAccepted
  · exact namesRight_of_precedingName extract emitted

def emptyFileSettings : BodyDumpSettings where
  mimeType := none
  extractFiles := true
  mkstemp := fun names => ascii "/tmp/http-body-dump" ++ names.flatten
  mkstemp_fresh := by
    intro names member
    have shorter := (List.sublist_flatten_of_mem member).length_le
    have longer : 0 < (ascii "/tmp/http-body-dump").length := by decide
    rw [List.length_append] at shorter
    omega
  mimeFromFile := fun _ => .ok (some (ascii "application/x-empty"))
  fromFile := fun _ => .ok (ascii "empty")
  guessExtension := fun _ => none
  md5 := fun _ => ascii "d41d8cd98f00b204e9800998ecf8427e"
  sha1 := fun _ => ascii "da39a3ee5e6b4b0d3255bfef95601890afd80709"
  sha256 := fun _ =>
    ascii "e3b0c44298fc1c149afbf4c8996fb92427ae41e4649b934ca495991b7852b855"

def emptyMessage (status : String) : HttpParts :=
  { status := ascii status, headers := ∅, payload := [] }

theorem namesRight_single : ∃ final,
    emit emptyFileSettings [] [] (conversation [emptyMessage "GET /a HTTP/1.1"]
      [emptyMessage "HTTP/1.1 200 OK"]) = .ok final ∧
    NamesRight emptyFileSettings [emptyMessage "GET /a HTTP/1.1"]
      [emptyMessage "HTTP/1.1 200 OK"] final.printed := by
  refine ⟨_, rfl, (namesRight_iff emptyFileSettings rfl [] [] _ _ _ rfl).mpr ?_⟩
  intro i response found _
  have first : i = 0 := Nat.lt_one_iff.mp (List.getElem?_eq_some_iff.mp found).1
  subst first
  decide

/-- Two requests in a row: the first response carries the name of the second
request. -/
theorem second_name_first : ¬ ∀ final,
    emit emptyFileSettings [] []
      (conversation [emptyMessage "GET /a HTTP/1.1", emptyMessage "GET /b HTTP/1.1"]
        [emptyMessage "HTTP/1.1 200 OK", emptyMessage "HTTP/1.1 200 OK"]) = .ok final →
    NamesRight emptyFileSettings
      [emptyMessage "GET /a HTTP/1.1", emptyMessage "GET /b HTTP/1.1"]
      [emptyMessage "HTTP/1.1 200 OK", emptyMessage "HTTP/1.1 200 OK"] final.printed := by
  intro always
  have same := precedingName_of_namesRight rfl rfl (always _ rfl) (i := 0) rfl rfl
  exact absurd same (by decide)

end HttpBodyDumpEmitter

end Packetpig
