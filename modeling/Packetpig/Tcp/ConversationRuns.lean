/-
Runs of StreamHandler over the interleaved events of many connections.

The handler keeps one list of timestamps for all connections: every established
connection throws away the list so far, and every event of any connection goes
into it. And a connection that libnids reports with `NIDS_EXITING` matches no
branch of the handler.
-/

import Packetpig.Tcp.StreamHandler

namespace Packetpig.StreamHandler

open Text

section Interleavings

variable {κ τ : Type}

def Event.isEnd (event : Event κ τ) : Bool := event.tcp.nidsState.endState.isSome

/-- What libnids delivers for a connection before its last event. -/
def Started (events : List (Event κ τ)) : Prop :=
  ∃ first later, events = first :: later ∧ first.tcp.nidsState = .justEst ∧
    ∀ event ∈ later, event.tcp.nidsState = .data

def LifeCycle (finals : List NidsState) (events : List (Event κ τ)) : Prop :=
  ∃ before final, events = before ++ [final] ∧ Started before ∧ final.tcp.nidsState ∈ finals

/-- The final states that `handle` tests for. -/
def endStates : List NidsState := [.close, .timeout, .reset]

def finalStates : List NidsState := [.close, .timeout, .reset, .exiting]

theorem isEnd_iff (event : Event κ τ) : event.isEnd = true ↔ event.tcp.nidsState ∈ endStates := by
  cases state : event.tcp.nidsState <;> simp [Event.isEnd, NidsState.endState, endStates, state]

private theorem Started.not_isEnd {events : List (Event κ τ)} (started : Started events) :
    ∀ event ∈ events, event.isEnd = false := by
  rcases started with ⟨first, later, rfl, established, data⟩
  intro event member
  rcases List.mem_cons.mp member with rfl | member
  · simp [Event.isEnd, established, NidsState.endState]
  · simp [Event.isEnd, data event member, NidsState.endState]

private theorem Started.eq_final {before : List (Event κ τ)} {final event : Event κ τ}
    (started : Started before) (member : event ∈ before ++ [final])
    (notEst : event.tcp.nidsState ≠ .justEst) (notData : event.tcp.nidsState ≠ .data) :
    event = final := by
  rcases started with ⟨first, later, rfl, established, data⟩
  rcases List.mem_append.mp member with earlier | last
  · rcases List.mem_cons.mp earlier with rfl | middle
    · exact absurd established notEst
    · exact absurd (data event middle) notData
  · exact List.mem_singleton.mp last

private theorem Started.eq_final_of_isEnd {before : List (Event κ τ)} {final event : Event κ τ}
    (started : Started before) (member : event ∈ before ++ [final])
    (isEnd : event.isEnd = true) : event = final := by
  have state := (isEnd_iff event).mp isEnd
  apply started.eq_final member
  · intro established
    simp [established, endStates] at state
  · intro data
    simp [data, endStates] at state

section Own

variable [DecidableEq κ]

def own (connection : κ) (events : List (Event κ τ)) : List (Event κ τ) :=
  events.filter fun event => event.connection = connection

/-- The events of each connection make up its life cycle. -/
def Interleaving (finals : List NidsState) (events : List (Event κ τ)) : Prop :=
  ∀ connection, own connection events = [] ∨ LifeCycle finals (own connection events)

@[simp] theorem own_append (connection : κ) (left right : List (Event κ τ)) :
    own connection (left ++ right) = own connection left ++ own connection right :=
  List.filter_append ..

theorem own_cons_self (event : Event κ τ) (events : List (Event κ τ)) :
    own event.connection (event :: events) = event :: own event.connection events := by
  simp [own]

private theorem Interleaving.position {finals : List NidsState} {before after : List (Event κ τ)}
    {event : Event κ τ} (interleaved : Interleaving finals (before ++ event :: after)) :
    (event.tcp.nidsState = .justEst ∧ own event.connection before = []) ∨
    (event.tcp.nidsState = .data ∧ Started (own event.connection before)) ∨
    (event.tcp.nidsState ∈ finals ∧ Started (own event.connection before) ∧
      own event.connection after = []) := by
  have cycle := interleaved event.connection
  rw [own_append, own_cons_self] at cycle
  rcases cycle with empty | ⟨middle, final, whole, started, isFinal⟩
  · exact absurd empty (by simp)
  rcases List.eq_nil_or_concat' (own event.connection after) with nothing | ⟨later, last, same⟩
  · rw [nothing] at whole
    obtain ⟨rfl, isLast⟩ := List.append_inj' whole rfl
    cases isLast
    exact .inr (.inr ⟨isFinal, started, nothing⟩)
  · rw [same, ← List.cons_append, ← List.append_assoc] at whole
    obtain ⟨rfl, -⟩ := List.append_inj' whole rfl
    rcases started with ⟨first, data, shape, established, isData⟩
    cases front : own event.connection before with
    | nil =>
        rw [front] at shape
        obtain ⟨rfl, -⟩ := List.cons.inj shape
        exact .inl ⟨established, rfl⟩
    | cons head tail =>
        rw [front] at shape
        obtain ⟨rfl, rfl⟩ := List.cons.inj shape
        refine .inr (.inl ⟨isData event (by simp), head, tail, rfl, established, ?_⟩)
        exact fun other member => isData other (List.mem_append_left _ member)

end Own

end Interleavings

section Steps

variable {κ τ : Type} (settings : StreamSettings τ)

/-- The list of timestamps after an event that raises nothing. -/
def advance (timestamps : List τ) (event : Event κ τ) : List τ :=
  if event.tcp.nidsState = .justEst then [event.pktTs]
  else if event.isEnd then []
  else timestamps ++ [event.pktTs]

/-- HttpHandler raises nothing on the data of the event. -/
def Processes (event : Event κ τ) : Prop :=
  ∃ http, HttpHandler.process settings.gunzip event.tcp.serverData event.tcp.clientData = .ok http

theorem handle_of_not_isEnd (timestamps : List τ) (event : Event κ τ)
    (notEnd : event.isEnd = false) :
    handle settings timestamps event.pktTs event.tcp = (.ok [], advance timestamps event) := by
  cases state : event.tcp.nidsState <;>
    simp_all [handle, advance, Event.isEnd, NidsState.endState]

theorem handle_of_isEnd (timestamps : List τ) (event : Event κ τ) (isEnd : event.isEnd = true) :
    handle settings timestamps event.pktTs event.tcp =
      match emit settings (timestamps ++ [event.pktTs]) event.tcp with
      | .error exception => (.error exception, timestamps ++ [event.pktTs])
      | .ok printed => (.ok printed, advance timestamps event) := by
  cases emitted : emit settings (timestamps ++ [event.pktTs]) event.tcp <;>
    cases state : event.tcp.nidsState <;>
      simp_all [handle, advance, Event.isEnd, NidsState.endState]

def Records (timestamps : List τ) (out : OutRecord τ) : Prop :=
  out.timestamps = timestamps ∧ timestamps.head? = some out.ts

theorem emit_of_processes (json : settings.outputFormat = ascii "json") (timestamps : List τ)
    (event : Event κ τ) (isEnd : event.isEnd = true) (processes : Processes settings event) :
    ∃ out, emit settings (timestamps ++ [event.pktTs]) event.tcp = .ok [.json out] ∧
      Records (timestamps ++ [event.pktTs]) out := by
  obtain ⟨endState, atEnd⟩ := Option.isSome_iff_exists.mp isEnd
  rcases processes with ⟨http, processed⟩
  obtain ⟨ts, rest, whole⟩ : ∃ ts rest, timestamps ++ [event.pktTs] = ts :: rest :=
    List.exists_cons_of_ne_nil (by simp)
  refine ⟨outRecord settings ts (timestamps ++ [event.pktTs]) endState event.tcp http, ?_, rfl, ?_⟩
  · simp only [emit, whole, atEnd, processed, json, if_true]
  · rw [whole]
    rfl

theorem processes_of_emit {timestamps : List τ} {event : Event κ τ} {printed : List (Printed τ)}
    (emitted : emit settings timestamps event.tcp = .ok printed) : Processes settings event := by
  cases timestamps with
  | nil => cases emitted
  | cons ts timestamps =>
      simp only [emit] at emitted
      split at emitted
      · cases emitted
      · cases processed : HttpHandler.process settings.gunzip event.tcp.serverData
            event.tcp.clientData with
        | error exception => simp only [processed, reduceCtorEq] at emitted
        | ok http => exact ⟨http, processed⟩

end Steps

section Traces

variable {κ τ : Type} (settings : StreamSettings τ)

theorem runTrace_cons_of_not_isEnd (timestamps : List τ) (event : Event κ τ)
    (events : List (Event κ τ)) (notEnd : event.isEnd = false) :
    runTrace settings timestamps (event :: events) =
      (event, []) :: runTrace settings (advance timestamps event) events := by
  rw [runTrace, handle_of_not_isEnd settings timestamps event notEnd]

theorem runTrace_cons_of_emit (timestamps : List τ) (event : Event κ τ)
    (events : List (Event κ τ)) (isEnd : event.isEnd = true) {printed : List (Printed τ)}
    (emitted : emit settings (timestamps ++ [event.pktTs]) event.tcp = .ok printed) :
    runTrace settings timestamps (event :: events) =
      (event, printed) :: runTrace settings (advance timestamps event) events := by
  rw [runTrace, handle_of_isEnd settings timestamps event isEnd, emitted]

theorem mem_runTrace {timestamps : List τ} {events : List (Event κ τ)} {event : Event κ τ}
    {printed : List (Printed τ)} (member : (event, printed) ∈ runTrace settings timestamps events) :
    ∃ before after, events = before ++ event :: after ∧
      ((event.isEnd = false ∧ printed = []) ∨
        (event.isEnd = true ∧
          emit settings (before.foldl advance timestamps ++ [event.pktTs]) event.tcp =
            .ok printed)) := by
  induction events generalizing timestamps with
  | nil => exact absurd member List.not_mem_nil
  | cons head tail ih =>
      have later (member : (event, printed) ∈ runTrace settings (advance timestamps head) tail) :
          ∃ before after, head :: tail = before ++ event :: after ∧
            ((event.isEnd = false ∧ printed = []) ∨
              (event.isEnd = true ∧
                emit settings (before.foldl advance timestamps ++ [event.pktTs]) event.tcp =
                  .ok printed)) := by
        obtain ⟨before, after, rfl, step⟩ := ih member
        exact ⟨head :: before, after, rfl, step⟩
      cases isEnd : head.isEnd with
      | false =>
          rw [runTrace_cons_of_not_isEnd settings _ _ _ isEnd] at member
          rcases List.mem_cons.mp member with here | there
          · cases here
            exact ⟨[], tail, rfl, .inl ⟨isEnd, rfl⟩⟩
          · exact later there
      | true =>
          cases emitted : emit settings (timestamps ++ [head.pktTs]) head.tcp with
          | error exception =>
              rw [runTrace, handle_of_isEnd settings timestamps head isEnd, emitted] at member
              exact absurd member List.not_mem_nil
          | ok output =>
              rw [runTrace_cons_of_emit settings _ _ _ isEnd emitted] at member
              rcases List.mem_cons.mp member with here | there
              · cases here
                exact ⟨[], tail, rfl, .inr ⟨isEnd, emitted⟩⟩
              · exact later there

private theorem flatMap_runTrace_of_not_isEnd {timestamps : List τ} {events : List (Event κ τ)}
    (notEnd : ∀ event ∈ events, event.isEnd = false) :
    (runTrace settings timestamps events).flatMap Prod.snd = [] := by
  rw [List.flatMap_eq_nil_iff]
  intro found member
  rcases found with ⟨event, printed⟩
  obtain ⟨before, after, rfl, ⟨-, nothing⟩ | ⟨isEnd, -⟩⟩ := mem_runTrace settings member
  · exact nothing
  · rw [notEnd event (by simp)] at isEnd
    cases isEnd

theorem runTrace_append (json : settings.outputFormat = ascii "json") (timestamps : List τ)
    (events more : List (Event κ τ))
    (fine : ∀ event ∈ events, event.isEnd = true → Processes settings event) :
    runTrace settings timestamps (events ++ more) =
      runTrace settings timestamps events ++
        runTrace settings (events.foldl advance timestamps) more := by
  induction events generalizing timestamps with
  | nil => rfl
  | cons head tail ih =>
      have later := ih (advance timestamps head)
        fun event member => fine event (List.mem_cons_of_mem _ member)
      cases isEnd : head.isEnd with
      | false =>
          rw [List.cons_append, runTrace_cons_of_not_isEnd settings _ _ _ isEnd,
            runTrace_cons_of_not_isEnd settings _ _ _ isEnd, later]
          rfl
      | true =>
          obtain ⟨out, emitted, -⟩ := emit_of_processes settings json timestamps head isEnd
            (fine head List.mem_cons_self isEnd)
          rw [List.cons_append, runTrace_cons_of_emit settings _ _ _ isEnd emitted,
            runTrace_cons_of_emit settings _ _ _ isEnd emitted, later]
          rfl

private theorem exists_record (json : settings.outputFormat = ascii "json")
    {before after : List (Event κ τ)} {event : Event κ τ}
    (fine : ∀ other ∈ before ++ event :: after, other.isEnd = true → Processes settings other)
    (isEnd : event.isEnd = true) :
    ∃ out, (event, [Printed.json out]) ∈ runTrace settings [] (before ++ event :: after) ∧
      Records (before.foldl advance [] ++ [event.pktTs]) out := by
  obtain ⟨out, emitted, records⟩ := emit_of_processes settings json (before.foldl advance []) event
    isEnd (fine event (by simp) isEnd)
  refine ⟨out, ?_, records⟩
  rw [runTrace_append settings json _ _ _
      fun other member => fine other (List.mem_append_left _ member),
    runTrace_cons_of_emit settings _ _ _ isEnd emitted]
  simp

private theorem foldl_advance_started {events : List (Event κ τ)} (started : Started events)
    (timestamps : List τ) :
    events.foldl advance timestamps = events.map Event.pktTs := by
  rcases started with ⟨first, later, rfl, established, data⟩
  have collect : ∀ kept : List τ,
      later.foldl advance kept = kept ++ later.map Event.pktTs := by
    induction later with
    | nil => exact fun kept => (List.append_nil kept).symm
    | cons event later ih =>
        intro kept
        have here : event.tcp.nidsState = .data := data event List.mem_cons_self
        have step : advance kept event = kept ++ [event.pktTs] := by
          simp [advance, Event.isEnd, NidsState.endState, here]
        rw [List.foldl_cons, step,
          ih fun other member => data other (List.mem_cons_of_mem _ member)]
        simp
  rw [List.foldl_cons, collect, advance, if_pos established]
  rfl

end Traces

/-! ### Timestamps of a record -/

section Timestamps

variable {κ τ : Type} [DecidableEq κ] (settings : StreamSettings τ)

def ended (connection : κ) (events : List (Event κ τ)) : Bool :=
  (own connection events).any Event.isEnd

/-- Whenever a connection is established, every earlier one has ended. -/
def Consecutive (events : List (Event κ τ)) : Prop :=
  ∀ before event after, events = before ++ event :: after → event.tcp.nidsState = .justEst →
    ∀ other ∈ before, ended other.connection before = true

/-- Every printed record carries the timestamps of the connection's own events,
and is the one printed for the connection alone. -/
def OwnRecords (events : List (Event κ τ)) : Prop :=
  ∀ event printed, (event, printed) ∈ runTrace settings [] events →
    ∀ out, Printed.json out ∈ printed →
      Records ((own event.connection events).map Event.pktTs) out ∧
        (runTrace settings [] (own event.connection events)).flatMap Prod.snd = printed

def openEvents (events : List (Event κ τ)) : List (Event κ τ) :=
  events.filter fun event => !ended event.connection events

private theorem ended_eq_false {connection : κ} {events : List (Event κ τ)}
    (unfinished : own connection events = [] ∨ Started (own connection events)) :
    ended connection events = false := by
  rw [ended, List.any_eq_false]
  intro event member
  rcases unfinished with empty | started
  · rw [empty] at member
    exact absurd member List.not_mem_nil
  · simp [started.not_isEnd event member]

private theorem openEvents_snoc {before : List (Event κ τ)} {event : Event κ τ}
    (notEnd : event.isEnd = false) (unfinished : ended event.connection before = false) :
    openEvents (before ++ [event]) = openEvents before ++ [event] := by
  have unchanged : ∀ connection,
      ended connection (before ++ [event]) = ended connection before := by
    intro connection
    have last : (own connection [event]).any Event.isEnd = false := by
      rw [List.any_eq_false]
      intro other member
      have isLast := List.mem_singleton.mp (List.mem_of_mem_filter member)
      simp [isLast, notEnd]
    rw [ended, own_append, List.any_append, last, Bool.or_false, ended]
  simp only [openEvents, unchanged, List.filter_append]
  rw [List.filter_cons_of_pos (by simp [unfinished]), List.filter_nil]

private theorem openEvents_snoc_of_isEnd {before : List (Event κ τ)} {event : Event κ τ}
    (isEnd : event.isEnd = true) :
    openEvents (before ++ [event]) =
      (openEvents before).filter fun other => other.connection ≠ event.connection := by
  have closes : ∀ connection, ended connection (before ++ [event]) =
      (ended connection before || decide (event.connection = connection)) := by
    intro connection
    rw [ended, own_append, List.any_append, ended]
    by_cases same : event.connection = connection <;> simp [own, same, isEnd]
  simp only [openEvents, closes, List.filter_append, List.filter_filter]
  rw [List.filter_cons_of_neg (by simp), List.filter_nil, List.append_nil]
  apply List.filter_congr
  intro other _
  by_cases same : other.connection = event.connection
  · simp [same]
  · simp [same, Ne.symm same]

private theorem own_openEvents {connection : κ} {events : List (Event κ τ)}
    (unfinished : ended connection events = false) :
    own connection (openEvents events) = own connection events := by
  rw [openEvents, own, own, List.filter_filter]
  apply List.filter_congr
  intro event _
  by_cases same : event.connection = connection
  · simp [same, unfinished]
  · simp [same]

structure HoldsOpen (before : List (Event κ τ)) : Prop where
  timestamps : before.foldl advance [] = (openEvents before).map Event.pktTs
  single : ∀ event ∈ openEvents before, ∀ other ∈ openEvents before,
    event.connection = other.connection

private theorem HoldsOpen.openEvents_eq {before : List (Event κ τ)} (holds : HoldsOpen before)
    {connection : κ} (started : Started (own connection before)) :
    openEvents before = own connection before := by
  have same := own_openEvents (ended_eq_false (.inr started))
  rcases started with ⟨first, later, shape, -⟩
  have firstOpen : first ∈ own connection (openEvents before) := by
    rw [same, shape]
    exact List.mem_cons_self
  obtain ⟨firstMember, atConnection⟩ := List.mem_filter.mp firstOpen
  rw [← same, own, eq_comm, List.filter_eq_self]
  intro event member
  rw [decide_eq_true_eq, holds.single event member first firstMember]
  exact of_decide_eq_true atConnection

private theorem holdsOpen (events : List (Event κ τ)) (interleaved : Interleaving endStates events)
    (consecutive : Consecutive events) (before after : List (Event κ τ))
    (whole : events = before ++ after) : HoldsOpen before := by
  induction before using List.reverseRecOn generalizing after with
  | nil => exact ⟨rfl, fun event member => absurd member List.not_mem_nil⟩
  | append_singleton before event ih =>
      rw [List.append_assoc, List.singleton_append] at whole
      have holds := ih (event :: after) whole
      subst whole
      rcases interleaved.position with ⟨established, unseen⟩ | ⟨isData, started⟩ |
        ⟨isFinal, started, -⟩
      · have notEnd : event.isEnd = false := by
          simp [Event.isEnd, established, NidsState.endState]
        have noneOpen : openEvents before = [] := by
          rw [openEvents, List.filter_eq_nil_iff]
          intro other member
          simp [consecutive before event after rfl established other member]
        have now := openEvents_snoc notEnd (ended_eq_false (.inl unseen))
        rw [noneOpen, List.nil_append] at now
        constructor
        · rw [now, List.foldl_append, List.foldl_cons, List.foldl_nil, advance, if_pos established]
          rfl
        · rw [now]
          intro left leftMember right rightMember
          rw [List.mem_singleton.mp leftMember, List.mem_singleton.mp rightMember]
      · have notEnd : event.isEnd = false := by
          simp [Event.isEnd, isData, NidsState.endState]
        have now := openEvents_snoc notEnd (ended_eq_false (.inr started))
        have atConnection : ∀ other ∈ openEvents (before ++ [event]),
            other.connection = event.connection := by
          rw [now, holds.openEvents_eq started]
          intro other member
          rcases List.mem_append.mp member with earlier | last
          · exact of_decide_eq_true (List.mem_filter.mp earlier).2
          · rw [List.mem_singleton.mp last]
        constructor
        · rw [now, List.map_append, ← holds.timestamps, List.foldl_append, List.foldl_cons,
            List.foldl_nil, advance, if_neg (by simp [isData]), if_neg (by simp [notEnd])]
          rfl
        · intro left leftMember right rightMember
          rw [atConnection left leftMember, atConnection right rightMember]
      · have isEnd := (isEnd_iff event).mpr isFinal
        have closed : openEvents (before ++ [event]) = [] := by
          rw [openEvents_snoc_of_isEnd isEnd, holds.openEvents_eq started, List.filter_eq_nil_iff]
          intro other member
          simp [of_decide_eq_true (List.mem_filter.mp member).2]
        have notEst : event.tcp.nidsState ≠ .justEst := by
          intro established
          simp [established, endStates] at isFinal
        constructor
        · rw [closed, List.foldl_append, List.foldl_cons, List.foldl_nil, advance, if_neg notEst,
            if_pos isEnd]
          rfl
        · rw [closed]
          exact fun event member => absurd member List.not_mem_nil

private theorem ownRecords_of_consecutive (json : settings.outputFormat = ascii "json")
    (events : List (Event κ τ)) (interleaved : Interleaving endStates events)
    (consecutive : Consecutive events) : OwnRecords settings events := by
  intro event printed member out printedOut
  obtain ⟨before, after, rfl, ⟨-, rfl⟩ | ⟨isEnd, emitted⟩⟩ := mem_runTrace settings member
  · exact absurd printedOut List.not_mem_nil
  have holds := holdsOpen _ interleaved consecutive before (event :: after) rfl
  rcases interleaved.position with ⟨established, -⟩ | ⟨isData, -⟩ | ⟨-, started, nothingLater⟩
  · simp [Event.isEnd, established, NidsState.endState] at isEnd
  · simp [Event.isEnd, isData, NidsState.endState] at isEnd
  have ownEvents : own event.connection (before ++ event :: after) =
      own event.connection before ++ [event] := by
    rw [own_append, own_cons_self, nothingLater]
  rw [holds.timestamps, holds.openEvents_eq started] at emitted
  obtain ⟨out', emitted', records⟩ := emit_of_processes settings json
    ((own event.connection before).map Event.pktTs) event isEnd (processes_of_emit settings emitted)
  rw [emitted] at emitted'
  cases emitted'
  cases List.mem_singleton.mp printedOut
  rw [ownEvents, List.map_append]
  refine ⟨records, ?_⟩
  rw [runTrace_append settings json _ _ _
      fun other member isEnd => by simp [started.not_isEnd other member] at isEnd,
    List.flatMap_append, flatMap_runTrace_of_not_isEnd settings started.not_isEnd,
    foldl_advance_started started,
    runTrace_cons_of_emit settings _ _ _ isEnd emitted]
  rfl

/-- How far the number of events of open connections exceeds the length of the
list. No step lowers it when all records are right, and it is zero at the end. -/
def excess (before : List (Event κ τ)) : Int :=
  (openEvents before).length - (before.foldl advance []).length

private theorem excess_le_snoc (json : settings.outputFormat = ascii "json")
    {before after : List (Event κ τ)} {event : Event κ τ}
    (interleaved : Interleaving endStates (before ++ event :: after))
    (fine : ∀ other ∈ before ++ event :: after, other.isEnd = true → Processes settings other)
    (right : OwnRecords settings (before ++ event :: after)) :
    excess before ≤ excess (before ++ [event]) := by
  unfold excess
  rw [List.foldl_append, List.foldl_cons, List.foldl_nil]
  rcases interleaved.position with ⟨established, unseen⟩ | ⟨isData, started⟩ |
    ⟨isFinal, started, nothingLater⟩
  · have notEnd : event.isEnd = false := by
      simp [Event.isEnd, established, NidsState.endState]
    rw [openEvents_snoc notEnd (ended_eq_false (.inl unseen)), advance, if_pos established,
      List.length_append, List.length_singleton, List.length_singleton]
    omega
  · have notEnd : event.isEnd = false := by
      simp [Event.isEnd, isData, NidsState.endState]
    rw [openEvents_snoc notEnd (ended_eq_false (.inr started)), advance,
      if_neg (by simp [isData]), if_neg (by simp [notEnd]), List.length_append,
      List.length_append, List.length_singleton, List.length_singleton]
    omega
  · have isEnd := (isEnd_iff event).mpr isFinal
    obtain ⟨out, member, records⟩ := exists_record settings json fine isEnd
    have ownTimestamps := (right event _ member out (by simp)).1.1
    rw [records.1, own_append, own_cons_self, nothingLater] at ownTimestamps
    have sizes := congrArg List.length ownTimestamps
    simp only [List.length_append, List.length_singleton, List.length_map] at sizes
    have parts := (openEvents before).length_eq_length_filter_add
      fun other => decide (other.connection = event.connection)
    have mine := own_openEvents (ended_eq_false (.inr started))
    rw [own] at mine
    have notEst : event.tcp.nidsState ≠ .justEst := by
      intro established
      simp [established, endStates] at isFinal
    rw [openEvents_snoc_of_isEnd isEnd, advance, if_neg notEst, if_pos isEnd, List.length_nil]
    rw [mine] at parts
    simp only [ne_eq, decide_not]
    omega

private theorem excess_eq_zero (events : List (Event κ τ))
    (interleaved : Interleaving endStates events) : excess events = 0 := by
  have closed : openEvents events = [] := by
    rw [openEvents, List.filter_eq_nil_iff]
    intro event member
    have mine : event ∈ own event.connection events := List.mem_filter.mpr ⟨member, by simp⟩
    rcases interleaved event.connection with empty | ⟨before, final, whole, -, isFinal⟩
    · rw [empty] at mine
      exact absurd mine List.not_mem_nil
    · have isEnd := (isEnd_iff final).mpr isFinal
      simp [ended, whole, isEnd]
  have emptied : events.foldl advance [] = [] := by
    rcases List.eq_nil_or_concat' events with rfl | ⟨before, last, rfl⟩
    · rfl
    · -- The last event of all is the last one of its connection.
      rcases interleaved last.connection with empty | ⟨earlier, final, whole, -, isFinal⟩
      · simp [own] at empty
      · rw [own_append, own_cons_self] at whole
        obtain ⟨-, same⟩ := List.append_inj' whole rfl
        cases same
        have isEnd := (isEnd_iff last).mpr isFinal
        have notEst : last.tcp.nidsState ≠ .justEst := by
          intro established
          simp [established, endStates] at isFinal
        rw [List.foldl_append, List.foldl_cons, List.foldl_nil, advance, if_neg notEst,
          if_pos isEnd]
  rw [excess, closed, emptied]
  rfl

private theorem consecutive_of_ownRecords (json : settings.outputFormat = ascii "json")
    (events : List (Event κ τ)) (interleaved : Interleaving endStates events)
    (fine : ∀ event ∈ events, event.isEnd = true → Processes settings event)
    (right : OwnRecords settings events) : Consecutive events := by
  have noMore : ∀ after before, events = before ++ after → excess before ≤ 0 := by
    intro after
    induction after with
    | nil =>
        intro before same
        subst same
        rw [List.append_nil] at interleaved
        exact le_of_eq (excess_eq_zero before interleaved)
    | cons event after ih =>
        intro before same
        subst same
        have step := excess_le_snoc settings json interleaved fine right
        have later := ih (before ++ [event]) (by simp)
        omega
  intro before event after same established other member
  subst same
  have notEnd : event.isEnd = false := by
    simp [Event.isEnd, established, NidsState.endState]
  have bound := noMore after (before ++ [event]) (by simp)
  have unseen : own event.connection before = [] := by
    rcases interleaved.position with ⟨-, unseen⟩ | ⟨isData, -⟩ | ⟨isFinal, -⟩
    · exact unseen
    · rw [established] at isData
      cases isData
    · simp [established, endStates] at isFinal
  unfold excess at bound
  rw [List.foldl_append, List.foldl_cons, List.foldl_nil, advance, if_pos established,
    openEvents_snoc notEnd (ended_eq_false (.inl unseen)), List.length_append,
    List.length_singleton, List.length_singleton] at bound
  have noneOpen : openEvents before = [] := List.length_eq_zero_iff.mp (by omega)
  rw [openEvents, List.filter_eq_nil_iff] at noneOpen
  simpa using noneOpen other member

/-- In an interleaving whose connections follow one another every record is that
of its connection alone; and where nothing raises only such interleavings have
all records right. -/
theorem ownRecords_iff (json : settings.outputFormat = ascii "json")
    (events : List (Event κ τ)) (interleaved : Interleaving endStates events) :
    (Consecutive events → OwnRecords settings events) ∧
      ((∀ event ∈ events, event.isEnd = true → Processes settings event) →
        OwnRecords settings events → Consecutive events) :=
  ⟨ownRecords_of_consecutive settings json events interleaved,
    consecutive_of_ownRecords settings json events interleaved⟩

end Timestamps

section Examples

def jsonSettings : StreamSettings Nat :=
  { outputFormat := ascii "json"
    outputMode := ascii "base"
    str := decimal
    gunzip := .ok
    bodyRows := fun _ _ => .ok [] }

def emptyEvent (connection pktTs : Nat) (nidsState : NidsState) : Event Nat Nat :=
  { connection
    pktTs
    tcp :=
      { saddr := ascii "10.0.0.1"
        sport := 40000
        daddr := ascii "10.0.0.2"
        dport := 80
        nidsState
        clientData := []
        serverData := [] } }

private theorem processes_emptyEvent (connection pktTs : Nat) (state : NidsState) :
    Processes jsonSettings (emptyEvent connection pktTs state) := ⟨[], rfl⟩

private theorem interleaving_single (finals : List NidsState) (state : NidsState)
    (isFinal : state ∈ finals) :
    Interleaving finals [emptyEvent 0 1 .justEst, emptyEvent 0 2 state] := by
  intro connection
  by_cases same : connection = 0
  · subst same
    exact .inr ⟨[emptyEvent 0 1 .justEst], emptyEvent 0 2 state, rfl,
      ⟨_, [], rfl, rfl, fun _ member => absurd member List.not_mem_nil⟩, isFinal⟩
  · exact .inl (by simp [own, emptyEvent, Ne.symm same])

theorem ownRecords_single :
    OwnRecords jsonSettings [emptyEvent 0 1 .justEst, emptyEvent 0 2 .close] := by
  refine (ownRecords_iff jsonSettings rfl _
    (interleaving_single endStates .close (by decide))).1 ?_
  intro before event after whole established other member
  match before, whole with
  | [], _ => exact absurd member List.not_mem_nil
  | [_], whole =>
      cases whole
      cases established
  | _ :: _ :: _, whole => exact absurd (congrArg List.length whole) (by simp)

/-- A second connection is established before the first one closes: the first
record says that it began at the second timestamp. -/
theorem overlap_mixes_timestamps :
    ¬ OwnRecords jsonSettings
      [emptyEvent 0 1 .justEst, emptyEvent 1 2 .justEst, emptyEvent 0 3 .close,
        emptyEvent 1 4 .close] := by
  intro right
  have fine : ∀ other ∈ [emptyEvent 0 1 .justEst, emptyEvent 1 2 .justEst] ++
      emptyEvent 0 3 .close :: [emptyEvent 1 4 .close],
      other.isEnd = true → Processes jsonSettings other := by
    intro other member _
    simp only [List.cons_append, List.nil_append, List.mem_cons, List.not_mem_nil, or_false]
      at member
    rcases member with rfl | rfl | rfl | rfl <;> exact processes_emptyEvent _ _ _
  obtain ⟨out, member, records⟩ := exists_record jsonSettings rfl fine rfl
  have ownTimestamps := (right _ _ member out (by simp)).1.1
  rw [records.1] at ownTimestamps
  exact absurd ownTimestamps (by decide)

end Examples

/-! ### One record for each connection -/

section Counts

variable {κ τ : Type} [DecidableEq κ] (settings : StreamSettings τ)

def printedFor (connection : κ) (trace : List (Event κ τ × List (Printed τ))) :
    List (Printed τ) :=
  (trace.filter fun entry => entry.1.connection = connection).flatMap Prod.snd

/-- Every connection that was established gives one record. -/
def PrintsOnce (events : List (Event κ τ)) : Prop :=
  ∀ connection, own connection events ≠ [] →
    ∃ out, printedFor connection (runTrace settings [] events) = [.json out]

private theorem mem_printedFor {connection : κ} {events : List (Event κ τ)} {item : Printed τ}
    (member : item ∈ printedFor connection (runTrace settings [] events)) :
    ∃ event ∈ own connection events, event.isEnd = true ∧ Processes settings event := by
  obtain ⟨⟨event, printed⟩, kept, inside⟩ := List.mem_flatMap.mp member
  obtain ⟨inTrace, atConnection⟩ := List.mem_filter.mp kept
  obtain ⟨before, after, rfl, ⟨-, rfl⟩ | ⟨isEnd, emitted⟩⟩ := mem_runTrace settings inTrace
  · exact absurd inside List.not_mem_nil
  · exact ⟨event, List.mem_filter.mpr ⟨by simp, atConnection⟩, isEnd,
      processes_of_emit settings emitted⟩

private theorem printedFor_of_fine (json : settings.outputFormat = ascii "json") (connection : κ)
    (events : List (Event κ τ))
    (fine : ∀ event ∈ events, event.isEnd = true → Processes settings event)
    (timestamps : List τ) :
    ∃ outs : List (OutRecord τ),
      printedFor connection (runTrace settings timestamps events) = outs.map .json ∧
      outs.length = (own connection events).countP Event.isEnd := by
  induction events generalizing timestamps with
  | nil => exact ⟨[], rfl, rfl⟩
  | cons head tail ih =>
      obtain ⟨outs, printed, count⟩ := ih
        (fun event member => fine event (List.mem_cons_of_mem _ member)) (advance timestamps head)
      cases isEnd : head.isEnd with
      | false =>
          refine ⟨outs, ?_, ?_⟩
          · rw [runTrace_cons_of_not_isEnd settings _ _ _ isEnd, ← printed]
            by_cases same : head.connection = connection <;> simp [printedFor, same]
          · rw [count]
            by_cases same : head.connection = connection <;> simp [own, same, isEnd]
      | true =>
          obtain ⟨out, emitted, -⟩ := emit_of_processes settings json timestamps head isEnd
            (fine head List.mem_cons_self isEnd)
          rw [runTrace_cons_of_emit settings _ _ _ isEnd emitted]
          by_cases same : head.connection = connection
          · refine ⟨out :: outs, ?_, ?_⟩
            · simp only [printedFor] at printed
              simp [printedFor, same, printed]
            · simp [own, same, isEnd] at count ⊢
              exact count
          · refine ⟨outs, ?_, ?_⟩
            · simp only [printedFor] at printed
              simp [printedFor, same, printed]
            · simpa [own, same] using count

/-- One record for each connection is printed exactly when none is left open to
the end of the capture and HttpHandler raises on the data of none. -/
theorem printsOnce_iff (json : settings.outputFormat = ascii "json") (events : List (Event κ τ))
    (interleaved : Interleaving finalStates events) :
    PrintsOnce settings events ↔
      ∀ event ∈ events, event.tcp.nidsState ≠ .exiting ∧
        (event.isEnd = true → Processes settings event) := by
  constructor
  · intro once event member
    have mine : event ∈ own event.connection events := List.mem_filter.mpr ⟨member, by simp⟩
    obtain ⟨out, printed⟩ := once event.connection (List.ne_nil_of_mem mine)
    have inside : Printed.json out ∈
        printedFor event.connection (runTrace settings [] events) := by
      rw [printed]
      exact List.mem_singleton_self _
    obtain ⟨found, foundMember, foundEnd, processes⟩ := mem_printedFor settings inside
    rcases interleaved event.connection with empty | ⟨before, final, whole, started, isFinal⟩
    · rw [empty] at mine
      exact absurd mine List.not_mem_nil
    rw [whole] at mine foundMember
    obtain rfl : found = final := started.eq_final_of_isEnd foundMember foundEnd
    constructor
    · intro exiting
      have same : event = found := started.eq_final mine (by simp [exiting]) (by simp [exiting])
      have foundState := (isEnd_iff found).mp foundEnd
      rw [← same, exiting] at foundState
      simp [endStates] at foundState
    · intro isEnd
      have same : event = found := started.eq_final_of_isEnd mine isEnd
      rw [same]
      exact processes
  · intro closed connection someEvents
    obtain ⟨outs, printed, count⟩ := printedFor_of_fine settings json connection events
      (fun event member => (closed event member).2) []
    rcases interleaved connection with empty | ⟨before, final, whole, started, isFinal⟩
    · exact absurd empty someEvents
    have finalMember : final ∈ events := by
      apply List.mem_of_mem_filter (p := fun event => event.connection = connection)
      rw [← own, whole]
      exact List.mem_append_right before List.mem_cons_self
    have isEnd : final.isEnd = true := by
      rw [isEnd_iff]
      have notExiting := (closed final finalMember).1
      simp only [finalStates, endStates, List.mem_cons, List.not_mem_nil, or_false]
        at isFinal ⊢
      tauto
    have none : before.countP Event.isEnd = 0 := by
      rw [List.countP_eq_zero]
      intro event member
      simp [started.not_isEnd event member]
    rw [whole, List.countP_append, none, List.countP_singleton, if_pos isEnd] at count
    obtain ⟨out, rfl⟩ := List.length_eq_one_iff.mp count
    exact ⟨out, printed⟩

theorem printsOnce_closed :
    PrintsOnce jsonSettings [emptyEvent 0 1 .justEst, emptyEvent 0 2 .close] := by
  refine (printsOnce_iff jsonSettings rfl _
    (interleaving_single finalStates .close (by decide))).mpr ?_
  intro event member
  simp only [List.mem_cons, List.not_mem_nil, or_false] at member
  rcases member with rfl | rfl
  · exact ⟨by decide, fun _ => processes_emptyEvent _ _ _⟩
  · exact ⟨by decide, fun _ => processes_emptyEvent _ _ _⟩

/-- A connection that is still open when the capture ends has no record. -/
theorem exiting_connection_lost :
    ¬ PrintsOnce jsonSettings [emptyEvent 0 1 .justEst, emptyEvent 0 2 .exiting] := by
  intro once
  obtain ⟨out, printed⟩ := once 0 (by decide)
  cases printed

end Counts

end Packetpig.StreamHandler
