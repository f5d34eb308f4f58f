/-
The rows of ConversationLoader for the events of all connections in whatever
order they come: tcp.py prints a record for each connection that ends, and the
reader makes a row of it.
-/

import Packetpig.Conversation.Intervals
import Packetpig.Library.PullSource
import Packetpig.Tcp.ConversationRuns

namespace Packetpig.ConversationRecordReader

open Text StreamHandler

section Segments

variable {κ τ : Type}

/-- The events that end a connection, each with the events since the one before.
What follows the last one is in no segment. -/
def segments : List (Event κ τ) → List (List (Event κ τ) × Event κ τ)
  | [] => []
  | event :: events =>
      if event.isEnd then ([], event) :: segments events
      else
        match segments events with
        | [] => []
        | (before, final) :: later => (event :: before, final) :: later

def sinceEstablished : List (Event κ τ) → List (Event κ τ)
  | [] => []
  | event :: events =>
      if events.any fun later => later.tcp.nidsState = .justEst then sinceEstablished events
      else event :: events

def times (segment : List (Event κ τ) × Event κ τ) : List τ :=
  (sinceEstablished segment.1).map Event.pktTs ++ [segment.2.pktTs]

theorem sinceEstablished_suffix (events : List (Event κ τ)) :
    sinceEstablished events <:+ events := by
  induction events with
  | nil => exact List.suffix_refl _
  | cons event events ih =>
      rw [sinceEstablished]
      split
      · exact ih.trans (List.suffix_cons event events)
      · exact List.suffix_refl _

theorem segments_not_isEnd {events : List (Event κ τ)} {segment : List (Event κ τ) × Event κ τ}
    (member : segment ∈ segments events) :
    (∀ event ∈ segment.1, event.isEnd = false) ∧ segment.2.isEnd = true := by
  induction events generalizing segment with
  | nil => exact absurd member List.not_mem_nil
  | cons event events ih =>
      rw [segments] at member
      cases isEnd : event.isEnd with
      | true =>
          rw [if_pos isEnd] at member
          rcases List.mem_cons.mp member with rfl | later
          · exact ⟨fun event none => absurd none List.not_mem_nil, isEnd⟩
          · exact ih later
      | false =>
          rw [if_neg (by simp [isEnd])] at member
          cases found : segments events with
          | nil =>
              rw [found] at member
              exact absurd member List.not_mem_nil
          | cons first later =>
              rw [found] at member ih
              rcases List.mem_cons.mp member with rfl | inLater
              · obtain ⟨before, final⟩ := ih List.mem_cons_self
                exact ⟨List.forall_mem_cons.mpr ⟨isEnd, before⟩, final⟩
              · exact ih (List.mem_cons_of_mem _ inLater)

theorem segments_isPrefix (events : List (Event κ τ)) :
    ((segments events).flatMap fun segment => segment.1 ++ [segment.2]) <+: events := by
  induction events with
  | nil => exact List.prefix_refl _
  | cons event events ih =>
      rw [segments]
      split
      · rw [List.flatMap_cons]
        exact (List.prefix_cons_inj event).mpr ih
      · cases found : segments events with
        | nil => exact List.nil_prefix
        | cons first later =>
            rw [found, List.flatMap_cons] at ih
            rw [List.flatMap_cons]
            exact (List.prefix_cons_inj event).mpr ih

theorem segments_finals (events : List (Event κ τ)) :
    (segments events).map Prod.snd = events.filter Event.isEnd := by
  induction events with
  | nil => rfl
  | cons event events ih =>
      rw [segments]
      cases isEnd : event.isEnd with
      | true => rw [if_pos rfl, List.map_cons, ih, List.filter_cons_of_pos isEnd]
      | false =>
          rw [List.filter_cons_of_neg (by simp [isEnd]), ← ih]
          cases segments events with
          | nil => rfl
          | cons first later => rfl

theorem times_sublist (events : List (Event κ τ)) :
    ((segments events).flatMap times).Sublist (events.map Event.pktTs) := by
  have each : ∀ found : List (List (Event κ τ) × Event κ τ),
      (found.flatMap times).Sublist
        ((found.flatMap fun segment => segment.1 ++ [segment.2]).map Event.pktTs) := by
    intro found
    induction found with
    | nil => exact List.Sublist.refl _
    | cons segment found ih =>
        rw [List.flatMap_cons, List.flatMap_cons, List.map_append, List.map_append, times]
        exact (((sinceEstablished_suffix segment.1).sublist.map _).append
          (List.Sublist.refl _)).append ih
  exact (each (segments events)).trans ((segments_isPrefix events).sublist.map _)

private theorem sinceEstablished_eq_self {events : List (Event κ τ)}
    (none : (events.any fun event => event.tcp.nidsState = .justEst) = false) :
    sinceEstablished events = events := by
  cases events with
  | nil => rfl
  | cons event events =>
      rw [List.any_cons, Bool.or_eq_false_iff] at none
      rw [sinceEstablished, if_neg (by simpa using none.2)]

theorem foldl_advance (start : List τ) {before : List (Event κ τ)}
    (noEnd : ∀ event ∈ before, event.isEnd = false) :
    before.foldl advance start =
      (if before.any fun event => event.tcp.nidsState = .justEst then [] else start) ++
        (sinceEstablished before).map Event.pktTs := by
  induction before generalizing start with
  | nil => simp [sinceEstablished]
  | cons event before ih =>
      obtain ⟨here, later⟩ := List.forall_mem_cons.mp noEnd
      rw [List.foldl_cons, ih (advance start event) later, sinceEstablished, List.any_cons]
      cases more : before.any fun event => event.tcp.nidsState = .justEst with
      | true => simp
      | false =>
          rw [sinceEstablished_eq_self more]
          by_cases established : event.tcp.nidsState = .justEst
          · simp [advance, established]
          · simp [advance, established, here]

end Segments

section Printed

variable {κ τ : Type} (settings : StreamSettings τ)

/-- HttpHandler raises nothing where it is called. -/
def passes (event : Event κ τ) : Bool :=
  !event.isEnd ||
    (HttpHandler.process settings.gunzip event.tcp.serverData event.tcp.clientData).isOk

/-- The events until the script exits with an exception. -/
def processed (events : List (Event κ τ)) : List (Event κ τ) := events.takeWhile (passes settings)

structure Describes (stamps : List τ) (event : Event κ τ) (out : OutRecord τ) : Prop where
  timestamps : out.timestamps = stamps
  ts : stamps.head? = some out.ts
  src : out.src = event.tcp.saddr
  sport : out.sport = event.tcp.sport
  dst : out.dst = event.tcp.daddr
  dport : out.dport = event.tcp.dport
  endState : event.tcp.nidsState.endState = some out.endState

variable {settings}

private theorem emit_of_passes (json : settings.outputFormat = ascii "json") (timestamps : List τ)
    {event : Event κ τ} (isEnd : event.isEnd = true) (fine : passes settings event = true) :
    ∃ out, emit settings (timestamps ++ [event.pktTs]) event.tcp = .ok [.json out] ∧
      Describes (timestamps ++ [event.pktTs]) event out := by
  obtain ⟨endState, atEnd⟩ := Option.isSome_iff_exists.mp isEnd
  obtain ⟨ts, rest, whole⟩ : ∃ ts rest, timestamps ++ [event.pktTs] = ts :: rest :=
    List.exists_cons_of_ne_nil (by simp)
  rw [passes, isEnd, Bool.not_true, Bool.false_or] at fine
  cases done : HttpHandler.process settings.gunzip event.tcp.serverData event.tcp.clientData with
  | error exception =>
      rw [done] at fine
      cases fine
  | ok http =>
      refine ⟨outRecord settings ts (timestamps ++ [event.pktTs]) endState event.tcp http, ?_,
        rfl, ?_, rfl, rfl, rfl, rfl, atEnd⟩
      · simp only [emit, whole, atEnd, done, json, if_true]
      · rw [whole]
        rfl

private theorem emit_of_not_passes (timestamps : List τ) {event : Event κ τ}
    (raises : passes settings event = false) :
    event.isEnd = true ∧ ∃ exception, emit settings timestamps event.tcp = .error exception := by
  rw [passes, Bool.or_eq_false_iff, Bool.not_eq_false'] at raises
  refine ⟨raises.1, ?_⟩
  cases emitted : emit settings timestamps event.tcp with
  | error exception => exact ⟨exception, rfl⟩
  | ok printed =>
      obtain ⟨http, done⟩ := processes_of_emit settings emitted
      rw [done] at raises
      cases raises.2

def recordedFrom (start : List τ) :
    List (List (Event κ τ) × Event κ τ) → List (List τ × Event κ τ)
  | [] => []
  | (before, final) :: later =>
      (before.foldl advance start ++ [final.pktTs], final) ::
        later.map fun segment => (segment.1.foldl advance [] ++ [segment.2.pktTs], segment.2)

private theorem recordedFrom_nil (found : List (List (Event κ τ) × Event κ τ)) :
    recordedFrom [] found =
      found.map fun segment => (segment.1.foldl advance [] ++ [segment.2.pktTs], segment.2) := by
  cases found with
  | nil => rfl
  | cons segment later => rfl

theorem printed_recordedFrom (json : settings.outputFormat = ascii "json") (start : List τ)
    (events : List (Event κ τ)) :
    ∃ outs, (runTrace settings start events).flatMap Prod.snd = outs.map .json ∧
      List.Forall₂ (fun recorded out => Describes recorded.1 recorded.2 out)
        (recordedFrom start (segments (processed settings events))) outs := by
  induction events generalizing start with
  | nil => exact ⟨[], rfl, .nil⟩
  | cons event events ih =>
      cases fine : passes settings event with
      | false =>
          obtain ⟨isEnd, exception, failed⟩ :=
            emit_of_not_passes (start ++ [event.pktTs]) fine
          refine ⟨[], ?_, ?_⟩
          · rw [runTrace, handle_of_isEnd settings start event isEnd, failed]
            rfl
          · rw [processed, List.takeWhile_cons_of_neg (by simp [fine])]
            exact .nil
      | true =>
          have rest : processed settings (event :: events) = event :: processed settings events :=
            List.takeWhile_cons_of_pos fine
          rw [rest, segments]
          cases isEnd : event.isEnd with
          | false =>
              obtain ⟨outs, printed, described⟩ := ih (advance start event)
              refine ⟨outs, ?_, ?_⟩
              · rw [runTrace_cons_of_not_isEnd settings _ _ _ isEnd]
                exact printed
              · cases found : segments (processed settings events) with
                | nil =>
                    rw [found] at described
                    exact described
                | cons first later =>
                    rw [found] at described
                    exact described
          | true =>
              obtain ⟨out, emitted, describes⟩ := emit_of_passes json start isEnd fine
              obtain ⟨outs, printed, described⟩ := ih []
              have cleared : advance start event = [] := by
                have state := (isEnd_iff event).mp isEnd
                unfold advance
                rw [if_neg, if_pos isEnd]
                intro established
                rw [established] at state
                revert state
                decide
              refine ⟨out :: outs, ?_, ?_⟩
              · rw [runTrace_cons_of_emit settings _ _ _ isEnd emitted, cleared,
                  List.flatMap_cons, printed]
                rfl
              · rw [recordedFrom_nil] at described
                exact .cons describes described

end Printed

/-! ### What the reader makes of it -/

section Rows

variable {κ : Type}

/-- A line for each `print`. -/
def printedLine (json : JsonLines) : Printed Rat → Option Bytes
  | .json out => json.dumps out.toJson
  | .convo status headers direction =>
      json.dumps (.object
        [(ascii "status", .text status),
          (ascii "headers", .object (headers.entries.map fun entry => (entry.1, .text entry.2))),
          (ascii "direction", .text direction.text)])
  | .line text => some text

def printedText (json : JsonLines) (printed : List (Printed Rat)) : Option Bytes :=
  (printed.mapM (printedLine json)).map fun lines => lines.flatMap (· ++ [lineFeed])

def stamp (time : Rat) : Int := (Json.float time).getLongValue

def rowOf (stamps : List Rat) (event : Event κ Rat) : Keyed ConversationRow :=
  { key := stamp (stamps.head?.getD 0)
    tuple :=
      { src := some event.tcp.saddr
        sport := (Json.int event.tcp.sport).getIntValue
        dst := some event.tcp.daddr
        dport := (Json.int event.tcp.dport).getIntValue
        endState := event.tcp.nidsState.endState
        timestamps := stamps.map stamp
        intervals := (stamps.foldl addTimestamp ⟨0, [], []⟩).intervals } }

private theorem timestamps_eq (stamps : List Rat) (start : Times) :
    (stamps.foldl addTimestamp start).timestamps = start.timestamps ++ stamps.map stamp := by
  induction stamps generalizing start with
  | nil => exact (List.append_nil _).symm
  | cons time stamps ih =>
      rw [List.foldl_cons, ih, List.map_cons, addTimestamp, List.append_assoc]
      rfl

private theorem nextKeyValue_record (json : JsonLines) {out : OutRecord Rat} {line : Bytes}
    (printed : json.dumps out.toJson = some line) {stamps : List Rat} {event : Event κ Rat}
    (describes : Describes stamps event out) (rest : Bytes) :
    nextKeyValue json (line ++ lineFeed :: rest) = .item (rowOf stamps event) rest := by
  obtain ⟨noFeed, noReturn⟩ := json.plain _ _ printed
  have read := JavaText.readLine_append line rest noFeed noReturn
  have value := json.readValue_dumps _ _ printed
  have record : readRecord out.toJson = .ok (rowOf stamps event) := by
    rw [readRecord_toJson, timestamps_eq, rowOf, describes.ts, describes.timestamps, describes.src,
      describes.sport, describes.dst, describes.dport, describes.endState]
    rfl
  simp only [nextKeyValue, read, value, record]

private theorem printedText_cons (json : JsonLines) {first : Printed Rat}
    {later : List (Printed Rat)} {text : Bytes}
    (printed : printedText json (first :: later) = some text) :
    ∃ line rest, printedLine json first = some line ∧ printedText json later = some rest ∧
      text = line ++ lineFeed :: rest := by
  obtain ⟨lines, areLines, isText⟩ := Option.map_eq_some_iff.mp printed
  rw [List.mapM_cons, Option.bind_eq_bind, Option.bind_eq_some_iff] at areLines
  obtain ⟨line, isLine, areLines⟩ := areLines
  rw [Option.bind_eq_bind, Option.bind_eq_some_iff] at areLines
  obtain ⟨others, areOthers, same⟩ := areLines
  cases same
  refine ⟨line, others.flatMap (· ++ [lineFeed]), isLine, ?_, ?_⟩
  · rw [printedText, areOthers]
    rfl
  · rw [← isText, List.flatMap_cons, List.append_assoc]
    rfl

private theorem yields_records (json : JsonLines) {recorded : List (List Rat × Event κ Rat)}
    {outs : List (OutRecord Rat)}
    (described : List.Forall₂ (fun recorded out => Describes recorded.1 recorded.2 out)
      recorded outs) {text : Bytes} (printed : printedText json (outs.map .json) = some text) :
    ∃ final, Yields (nextKeyValue json) text
      (recorded.map fun recorded => rowOf recorded.1 recorded.2) .returnedFalse final := by
  induction described generalizing text with
  | nil =>
      cases printed
      exact ⟨_, .stop rfl⟩
  | cons describes _ ih =>
      obtain ⟨line, rest, isLine, areLater, rfl⟩ := printedText_cons json printed
      obtain ⟨final, later⟩ := ih areLater
      exact ⟨final, .item (nextKeyValue_record json isLine describes rest) later⟩

def capturedRows (settings : StreamSettings Rat) (events : List (Event κ Rat)) :
    List (Keyed ConversationRow) :=
  (segments (processed settings events)).map fun segment => rowOf (times segment) segment.2

theorem yields_capturedRows {settings : StreamSettings Rat}
    (format : settings.outputFormat = ascii "json") (json : JsonLines)
    (events : List (Event κ Rat)) {text : Bytes}
    (printed : printedText json ((runTrace settings [] events).flatMap Prod.snd) = some text) :
    ∃ final, Yields (nextKeyValue json) text (capturedRows settings events) .returnedFalse
      final := by
  obtain ⟨outs, areOuts, described⟩ := printed_recordedFrom format [] events
  rw [areOuts] at printed
  obtain ⟨final, yields⟩ := yields_records json described printed
  have stamps : ∀ segment ∈ segments (processed settings events),
      segment.1.foldl advance [] ++ [segment.2.pktTs] = times segment := by
    intro segment member
    rw [foldl_advance [] (segments_not_isEnd member).1, ite_self, List.nil_append, times]
  have rows : (recordedFrom [] (segments (processed settings events))).map
      (fun recorded => rowOf recorded.1 recorded.2) = capturedRows settings events := by
    rw [recordedFrom_nil, List.map_map]
    apply List.map_congr_left
    intro segment member
    change rowOf (segment.1.foldl advance [] ++ [segment.2.pktTs]) segment.2 = _
    rw [stamps segment member]
  rw [rows] at yields
  exact ⟨final, yields⟩

def rationalSettings : StreamSettings Rat :=
  { outputFormat := ascii "json"
    outputMode := ascii "base"
    str := fun _ => []
    gunzip := .ok
    bodyRows := fun _ _ => .ok [] }

def shortEvent (pktTs : Rat) (nidsState : NidsState) : Event Unit Rat :=
  { connection := ()
    pktTs
    tcp :=
      { saddr := ascii "10.0.0.1"
        sport := 40000
        daddr := ascii "10.0.0.2"
        dport := 22
        nidsState
        clientData := []
        serverData := [] } }

theorem printedText_twoPackets :
    printedText (JsonLines.single (conversationOf [1, 5 / 2]).toJson twoPackets twoPackets_plain)
      [.json (conversationOf [1, 5 / 2])] = some (twoPackets ++ [lineFeed]) := by
  rw [printedText, List.mapM_cons, printedLine, JsonLines.single_dumps]
  exact congrArg some (List.append_nil _)

/-- Whatever the order of the events, the reader has a row for each one that ends
a connection, until an exception ends the script: with the addresses and the end
state of this connection, and the timestamps of all events since the end before,
or since the last connection was established. No timestamp is in two rows. -/
theorem captured_conversations {settings : StreamSettings Rat}
    (format : settings.outputFormat = ascii "json") (json : JsonLines)
    (events : List (Event κ Rat)) {text : Bytes}
    (printed : printedText json ((runTrace settings [] events).flatMap Prod.snd) = some text) :
    ∃ rows final, Yields (nextKeyValue json) text rows .returnedFalse final ∧
      rows = ((segments (processed settings events)).map fun segment =>
        rowOf (times segment) segment.2) ∧
      (segments (processed settings events)).map Prod.snd =
        (processed settings events).filter Event.isEnd ∧
      (rows.flatMap fun row => row.tuple.timestamps).Sublist
        (events.map fun event => stamp event.pktTs) := by
  obtain ⟨final, yields⟩ := yields_capturedRows format json events printed
  refine ⟨_, final, yields, rfl, segments_finals _, ?_⟩
  have ordered := ((times_sublist (processed settings events)).trans
    ((List.takeWhile_sublist _).map _)).map stamp
  rw [List.map_flatMap, List.map_map] at ordered
  rw [capturedRows, List.flatMap_map]
  exact ordered

theorem captured_conversations_two_packets :
    ∃ rows final, Yields (nextKeyValue (JsonLines.single (conversationOf [1, 5 / 2]).toJson
        twoPackets twoPackets_plain)) (twoPackets ++ [lineFeed]) rows .returnedFalse final ∧
      rows = [rowOf [1, 5 / 2] (shortEvent (5 / 2) .close)] := by
  obtain ⟨rows, final, yields, same, -, -⟩ := @captured_conversations Unit rationalSettings rfl _
    [shortEvent 1 .justEst, shortEvent (5 / 2) .close] _ printedText_twoPackets
  exact ⟨rows, final, yields, same⟩

end Rows

end Packetpig.ConversationRecordReader
