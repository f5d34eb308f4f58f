/-
`process` on arbitrary bytes. Only ParsingException is caught in the loop over
the messages; a Content-Length that is no number and some failures of gzip
raise other exceptions, which leave the callback and end the run.
-/

import Packetpig.Library.PullSource
import Packetpig.Tcp.ConversationRuns

namespace Packetpig

open Text

def HttpParts.record (direction : Direction) (parts : HttpParts) : HttpRecord :=
  { parts with direction }

/-- The exceptions that `process` catches. -/
def PyException.Caught (exception : PyException) : Prop :=
  ∃ message, exception = .parsingException message

namespace HttpHandler

/-- The loop of `process` pulls one message after the other. -/
def cut (gunzip : Bytes → Except PyException Bytes) (data : Bytes) :
    Pull Bytes HttpParts (Option PyException) :=
  match extractHttpParts gunzip data with
  | .ok none => .stop none data
  | .ok (some (parts, rest)) => .item parts rest
  | .error exception => .stop (some exception) data

/-- The messages in front of the first place where none, or a malformed one,
can be cut out. -/
def Messages (gunzip : Bytes → Except PyException Bytes) (data : Bytes)
    (messages : List HttpParts) : Prop :=
  ∃ reason rest, Yields (cut gunzip) data messages reason rest

section Malformed

variable (gunzip : Bytes → Except PyException Bytes)

/-- A message whose length is announced by a number, if at all, and whose
compressed body, if it has one, makes gzip raise nothing but IOError and
zlib.error. -/
structure Readable (bits : HttpBits) : Prop where
  length : ∀ text, bits.headers.lookup (ascii "content-length") = some text →
    readInt 10 text ≠ none
  coding : bits.headers.lookup (ascii "content-encoding") = some (ascii "gzip") →
    ∀ part exception, partPayload bits.headers bits.payload = .ok part →
      gunzip part = .error exception →
      exception.Caught ∨ ∃ message, exception = .ioError message ∨ exception = .zlibError message

/-- Every message that is met while the data is taken apart is readable. -/
def AllReadable (data : Bytes) : Prop :=
  ∀ messages rest bits, Advances (cut gunzip) data messages rest →
    httpSplit rest = some bits → Readable gunzip bits

/-- `process` returns the messages of both directions, those of one direction
whatever the other one holds; and in json mode the record of the connection is
printed and the run goes on with the next event. -/
def Survives (sdata cdata : Bytes) : Prop :=
  ∃ server client, Messages gunzip sdata server ∧ Messages gunzip cdata client ∧
    process gunzip sdata cdata =
      .ok (server.map (HttpParts.record .s) ++ client.map (HttpParts.record .c)) ∧
    ∀ (κ τ : Type) (settings : StreamSettings τ) (packetTimestamps : List τ)
      (event : StreamHandler.Event κ τ) (events : List (StreamHandler.Event κ τ)),
      settings.gunzip = gunzip → settings.outputFormat = ascii "json" →
      event.tcp.serverData = sdata → event.tcp.clientData = cdata → event.isEnd = true →
      ∃ out, out.http = server.map (HttpParts.record .s) ++ client.map (HttpParts.record .c) ∧
        StreamHandler.runTrace settings packetTimestamps (event :: events) =
          (event, [.json out]) :: StreamHandler.runTrace settings [] events

theorem contentLength_eq_error_iff (headers : HttpHeaders) (exception : PyException) :
    contentLength headers = .error exception ↔
      exception = .valueError ∧
        ∃ text, headers.lookup (ascii "content-length") = some text ∧ readInt 10 text = none := by
  unfold contentLength
  cases found : headers.lookup (ascii "content-length") with
  | none => simp
  | some text =>
      cases number : readInt 10 text with
      | none => simp [number, eq_comm]
      | some length => simp [number]

theorem caught_of_chunkLoop (fuel : Nat) :
    ∀ (remaining : Bytes) (chunksize : Int) (part : Bytes) (exception : PyException),
      chunkLoop fuel remaining chunksize part = .error exception → exception.Caught := by
  induction fuel with
  | zero =>
      intro remaining chunksize part exception raised
      cases raised
  | succ fuel ih =>
      intro remaining chunksize part exception raised
      unfold chunkLoop at raised
      split at raised
      · cases raised
      · cases halves : splitOnce crlf remaining with
        | none =>
            simp only [halves] at raised
            cases raised
        | some lines =>
            simp only [halves] at raised
            cases number : readInt 16 lines.1 with
            | none =>
                simp only [number, Except.error.injEq] at raised
                exact ⟨_, raised.symm⟩
            | some size =>
                simp only [number] at raised
                exact ih _ _ _ _ raised

theorem partPayload_caught {headers : HttpHeaders} {payload : Bytes} {exception : PyException}
    (readable : ∀ text, headers.lookup (ascii "content-length") = some text →
      readInt 10 text ≠ none)
    (raised : partPayload headers payload = .error exception) : exception.Caught := by
  unfold partPayload at raised
  cases length : contentLength headers with
  | error other =>
      obtain ⟨-, text, found, unread⟩ := (contentLength_eq_error_iff headers other).mp length
      exact absurd unread (readable text found)
  | ok number =>
      simp only [length] at raised
      split at raised
      · cases raised
      · split at raised
        · exact caught_of_chunkLoop _ _ _ _ _ raised
        · cases raised

theorem decompress_caught_iff (data : Bytes) (headers : HttpHeaders) :
    (∀ exception, decompress gunzip data headers = .error exception → exception.Caught) ↔
      (headers.lookup (ascii "content-encoding") = some (ascii "gzip") →
        ∀ exception, gunzip data = .error exception →
          exception.Caught ∨
            ∃ message, exception = .ioError message ∨ exception = .zlibError message) := by
  unfold decompress
  cases coding : headers.lookup (ascii "content-encoding") with
  | none => simp
  | some encoding =>
      by_cases gzip : encoding = ascii "gzip"
      · have some : ascii "gzip" ≠ [] := by decide
        subst gzip
        simp only [some, if_false, if_true, forall_const]
        cases unzipped : gunzip data with
        | ok data => simp
        | error raised => cases raised <;> simp [PyException.Caught]
      · simp only [gzip, if_false, Option.some.injEq, false_implies, iff_true]
        intro exception raised
        split at raised
        · cases raised
        · exact ⟨_, (Except.error.inj raised).symm⟩

theorem readable_iff (data : Bytes) :
    (∀ bits, httpSplit data = some bits → Readable gunzip bits) ↔
      ∀ exception, extractHttpParts gunzip data = .error exception → exception.Caught := by
  unfold extractHttpParts
  cases split : httpSplit data with
  | none => simp
  | some bits =>
      simp only [Option.some.injEq, forall_eq']
      constructor
      · intro readable exception raised
        cases part : partPayload bits.headers bits.payload with
        | error other =>
            simp only [part, Except.error.injEq] at raised
            exact raised ▸ partPayload_caught readable.length part
        | ok payload =>
            have caught := (decompress_caught_iff gunzip payload bits.headers).mpr
              fun coding exception raised => readable.coding coding payload exception part raised
            cases decoded : decompress gunzip payload bits.headers with
            | error other =>
                simp only [part, decoded, Except.error.injEq] at raised
                exact raised ▸ caught other decoded
            | ok decoded' =>
                simp only [part, decoded, reduceCtorEq] at raised
      · intro caught
        constructor
        · intro text found unread
          have length := (contentLength_eq_error_iff bits.headers .valueError).mpr
            ⟨rfl, text, found, unread⟩
          obtain ⟨message, impossible⟩ := caught .valueError (by simp only [partPayload, length])
          cases impossible
        · intro coding payload exception part raised
          refine (decompress_caught_iff gunzip payload bits.headers).mp ?_ coding exception raised
          intro other decoded
          exact caught other (by simp only [part, decoded])

theorem cut_eq_item {data rest : Bytes} {parts : HttpParts}
    (pulled : cut gunzip data = .item parts rest) :
    extractHttpParts gunzip data = .ok (some (parts, rest)) := by
  unfold cut at pulled
  cases extracted : extractHttpParts gunzip data with
  | error exception => simp only [extracted, reduceCtorEq] at pulled
  | ok response =>
      cases response with
      | none => simp only [extracted, reduceCtorEq] at pulled
      | some found =>
          simp only [extracted, Pull.item.injEq] at pulled
          rw [← pulled.1, ← pulled.2]

theorem cut_eq_stop {data rest : Bytes} {reason : Option PyException}
    (pulled : cut gunzip data = .stop reason rest) :
    (reason = none ∧ extractHttpParts gunzip data = .ok none) ∨
      ∃ exception, reason = some exception ∧
        extractHttpParts gunzip data = .error exception := by
  unfold cut at pulled
  cases extracted : extractHttpParts gunzip data with
  | error exception =>
      simp only [extracted, Pull.stop.injEq] at pulled
      exact .inr ⟨exception, pulled.1.symm, rfl⟩
  | ok response =>
      cases response with
      | none =>
          simp only [extracted, Pull.stop.injEq] at pulled
          exact .inl ⟨pulled.1.symm, rfl⟩
      | some found => simp only [extracted, reduceCtorEq] at pulled

theorem exists_yields (data : Bytes) :
    ∃ messages reason rest, Yields (cut gunzip) data messages reason rest := by
  let source : PullSource Bytes HttpParts (Option PyException) :=
    { next := cut gunzip
      size := List.length
      shrinks := by
        intro data parts rest pulled
        have shorter := extractHttpParts_shorter (cut_eq_item gunzip pulled)
        omega }
  exact source.exists_yields data

theorem allReadable_iff {data rest : Bytes} {messages : List HttpParts}
    {reason : Option PyException} (run : Yields (cut gunzip) data messages reason rest) :
    AllReadable gunzip data ↔ ∀ exception, reason = some exception → exception.Caught := by
  induction run with
  | @stop data rest reason pulled =>
      have here : (∀ exception, extractHttpParts gunzip data = .error exception →
          exception.Caught) ↔ ∀ exception, reason = some exception → exception.Caught := by
        rcases cut_eq_stop gunzip pulled with ⟨rfl, extracted⟩ | ⟨exception, rfl, extracted⟩
        · simp [extracted]
        · simp [extracted]
      rw [← here, ← readable_iff]
      constructor
      · intro all bits split
        exact all [] data bits .refl split
      · intro readable messages rest bits moved split
        cases moved with
        | refl => exact readable bits split
        | item pulled' _ =>
            rw [pulled] at pulled'
            cases pulled'
  | @item data after rest parts messages reason pulled _ ih =>
      rw [← ih]
      constructor
      · intro all messages rest bits moved split
        exact all (parts :: messages) rest bits (.item pulled moved) split
      · intro later messages rest bits moved split
        cases moved with
        | refl =>
            refine (readable_iff gunzip data).mpr ?_ bits split
            intro exception raised
            rw [cut_eq_item gunzip pulled] at raised
            cases raised
        | item pulled' moved =>
            rw [pulled] at pulled'
            cases pulled'
            exact later _ _ _ moved split

theorem go_of_yields (direction : Direction) {data rest : Bytes} {messages : List HttpParts}
    {reason : Option PyException} (run : Yields (cut gunzip) data messages reason rest)
    (fuel : Nat) (enough : data.length < fuel) :
    (go gunzip direction fuel data).1 = messages.map (HttpParts.record direction) ∧
      ((go gunzip direction fuel data).2 = none ↔
        ∀ exception, reason = some exception → exception.Caught) := by
  induction run generalizing fuel with
  | stop pulled =>
      cases fuel with
      | zero => exact absurd enough (Nat.not_lt_zero _)
      | succ fuel =>
          rcases cut_eq_stop gunzip pulled with ⟨rfl, extracted⟩ | ⟨exception, rfl, extracted⟩
          · simp [go, extracted]
          · cases exception <;> simp [go, extracted, PyException.Caught]
  | item pulled _ ih =>
      cases fuel with
      | zero => exact absurd enough (Nat.not_lt_zero _)
      | succ fuel =>
          have extracted := cut_eq_item gunzip pulled
          have shorter := extractHttpParts_shorter extracted
          obtain ⟨records, ending⟩ := ih fuel (by omega)
          simp only [go, extracted]
          exact ⟨by rw [records]; rfl, ending⟩

theorem process_of_yields {sdata cdata serverRest clientRest : Bytes}
    {server client : List HttpParts} {serverEnd clientEnd : Option PyException}
    (serverRun : Yields (cut gunzip) sdata server serverEnd serverRest)
    (clientRun : Yields (cut gunzip) cdata client clientEnd clientRest)
    (serverReadable : AllReadable gunzip sdata) (clientReadable : AllReadable gunzip cdata) :
    process gunzip sdata cdata =
      .ok (server.map (HttpParts.record .s) ++ client.map (HttpParts.record .c)) := by
  obtain ⟨serverRecords, serverEnds⟩ :=
    go_of_yields gunzip .s serverRun (sdata.length + 1) (Nat.lt_succ_self _)
  obtain ⟨clientRecords, clientEnds⟩ :=
    go_of_yields gunzip .c clientRun (cdata.length + 1) (Nat.lt_succ_self _)
  have serverNone := serverEnds.mpr ((allReadable_iff gunzip serverRun).mp serverReadable)
  have clientNone := clientEnds.mpr ((allReadable_iff gunzip clientRun).mp clientReadable)
  have serverGo : go gunzip .s (sdata.length + 1) sdata =
      (server.map (HttpParts.record .s), none) := Prod.ext serverRecords serverNone
  have clientGo : go gunzip .c (cdata.length + 1) cdata =
      (client.map (HttpParts.record .c), none) := Prod.ext clientRecords clientNone
  simp only [process, serverGo, clientGo]

theorem allReadable_of_process {sdata cdata : Bytes} {records : List HttpRecord}
    (returned : process gunzip sdata cdata = .ok records) :
    AllReadable gunzip sdata ∧ AllReadable gunzip cdata := by
  obtain ⟨server, serverEnd, serverRest, serverRun⟩ := exists_yields gunzip sdata
  obtain ⟨client, clientEnd, clientRest, clientRun⟩ := exists_yields gunzip cdata
  obtain ⟨-, serverEnds⟩ :=
    go_of_yields gunzip .s serverRun (sdata.length + 1) (Nat.lt_succ_self _)
  obtain ⟨-, clientEnds⟩ :=
    go_of_yields gunzip .c clientRun (cdata.length + 1) (Nat.lt_succ_self _)
  rw [allReadable_iff gunzip serverRun, allReadable_iff gunzip clientRun, ← serverEnds,
    ← clientEnds]
  unfold process at returned
  split at returned
  · cases returned
  · rename_i serverGo
    split at returned
    · cases returned
    · rename_i clientGo
      rw [serverGo, clientGo]
      exact ⟨rfl, rfl⟩

theorem runTrace_of_process {κ τ : Type} (settings : StreamSettings τ)
    (json : settings.outputFormat = ascii "json") (packetTimestamps : List τ)
    (event : StreamHandler.Event κ τ) (events : List (StreamHandler.Event κ τ))
    (isEnd : event.isEnd = true) {records : List HttpRecord}
    (returned : process settings.gunzip event.tcp.serverData event.tcp.clientData =
      .ok records) :
    ∃ out, out.http = records ∧
      StreamHandler.runTrace settings packetTimestamps (event :: events) =
        (event, [.json out]) :: StreamHandler.runTrace settings [] events := by
  obtain ⟨endState, atEnd⟩ := Option.isSome_iff_exists.mp isEnd
  obtain ⟨ts, rest, whole⟩ : ∃ ts rest, packetTimestamps ++ [event.pktTs] = ts :: rest :=
    List.exists_cons_of_ne_nil (by simp)
  have emitted : StreamHandler.emit settings (packetTimestamps ++ [event.pktTs]) event.tcp =
      .ok [.json (StreamHandler.outRecord settings ts (packetTimestamps ++ [event.pktTs])
        endState event.tcp records)] := by
    simp only [StreamHandler.emit, whole, atEnd, returned, json, if_true]
  have emptied : StreamHandler.advance packetTimestamps event = [] := by
    cases state : event.tcp.nidsState <;>
      simp_all [StreamHandler.advance, NidsState.endState]
  refine ⟨_, ?_, (StreamHandler.runTrace_cons_of_emit settings packetTimestamps event events
    isEnd emitted).trans (by rw [emptied])⟩
  rfl

/-- The connection is handled right exactly if the messages of both directions
are readable. -/
theorem survives_iff (sdata cdata : Bytes) :
    Survives gunzip sdata cdata ↔ AllReadable gunzip sdata ∧ AllReadable gunzip cdata := by
  constructor
  · intro found
    rcases found with ⟨server, client, -, -, returned, -⟩
    exact allReadable_of_process gunzip returned
  · intro found
    rcases found with ⟨serverReadable, clientReadable⟩
    obtain ⟨server, serverEnd, serverRest, serverRun⟩ := exists_yields gunzip sdata
    obtain ⟨client, clientEnd, clientRest, clientRun⟩ := exists_yields gunzip cdata
    have returned :=
      process_of_yields gunzip serverRun clientRun serverReadable clientReadable
    refine ⟨server, client, ⟨_, _, serverRun⟩, ⟨_, _, clientRun⟩, returned, ?_⟩
    intro κ τ settings packetTimestamps event events sameGunzip json sameServer sameClient isEnd
    rw [← sameGunzip, ← sameServer, ← sameClient] at returned
    exact runTrace_of_process settings json packetTimestamps event events isEnd returned

end Malformed

def lengthWordRequest : Bytes :=
  ascii "GET / HTTP/1.1" ++ crlf ++ ascii "Content-Length: abc" ++ crlf ++ ascii "Host: x" ++
    (crlf ++ crlf)

/-- A request whose length is announced by a word. -/
theorem length_word_escapes : ¬ Survives (fun data => .ok data) lengthWordRequest [] := by
  intro found
  rcases found with ⟨server, client, -, -, returned, -⟩
  have raised : process (fun data => .ok data) lengthWordRequest [] = .error .valueError := rfl
  rw [raised] at returned
  cases returned

end HttpHandler

end Packetpig
