/-
The intervals of a conversation: the reader subtracts its first timestamp from
every later one, not the one before.
-/

import Packetpig.Conversation.ConversationRecordReader
import Packetpig.Tcp.StreamHandler
import Mathlib.Data.Rat.Lemmas
import Mathlib.Tactic.Abel

namespace Packetpig

open Text

section Differences

variable {α : Type} [AddCommGroup α]

def differences : List α → List α
  | [] => []
  | first :: later => List.zipWith (fun next previous => next - previous) later (first :: later)

theorem differences_length (items : List α) : (differences items).length = items.length - 1 := by
  cases items with
  | nil => rfl
  | cons first later => simp [differences]

theorem differences_cons_cons (first next : α) (later : List α) :
    differences (first :: next :: later) = (next - first) :: differences (next :: later) := rfl

theorem sum_differences (first : α) (later : List α) :
    (differences (first :: later)).sum = later.getLast?.getD first - first := by
  induction later generalizing first with
  | nil => simp [differences]
  | cons next later ih =>
      rw [differences_cons_cons, List.sum_cons, ih next, List.getLast?_cons, Option.getD_some]
      abel

/-- Subtracting one reference throughout gives the differences only if every
element with one behind it equals the reference. -/
theorem map_sub_eq_differences_iff (reference first : α) (later : List α) :
    later.map (fun item => item - reference) = differences (first :: later) ↔
      ∀ item ∈ (first :: later).dropLast, item = reference := by
  induction later generalizing first with
  | nil => simp [differences]
  | cons next later ih =>
      rw [differences_cons_cons, List.map_cons, List.cons.injEq, ih next, List.dropLast_cons_cons,
        List.forall_mem_cons, sub_right_inj, eq_comm]

end Differences

def HttpRecord.toJson (convo : HttpRecord) : Json :=
  .object
    [(ascii "status", .text convo.status),
      (ascii "headers", .object (convo.headers.entries.map fun entry => (entry.1, .text entry.2))),
      (ascii "payload", .text convo.payload), (ascii "direction", .text convo.direction.text)]

/-- The dictionary of `emit`, with the keys that are deleted or not set left out. -/
def OutRecord.toJson (out : OutRecord Rat) : Json :=
  .object
    ([(ascii "ts", .float out.ts), (ascii "timestamps", .array (out.timestamps.map .float)),
      (ascii "src", .text out.src), (ascii "sport", .int out.sport),
      (ascii "dst", .text out.dst), (ascii "dport", .int out.dport),
      (ascii "end_state", .text out.endState)] ++
      (out.cdata.map fun data => (ascii "cdata", Json.text data)).toList ++
      (out.sdata.map fun data => (ascii "sdata", Json.text data)).toList ++
      [(ascii "cdatalen", .int out.cdatalen), (ascii "sdatalen", .int out.sdatalen)] ++
      if out.http = [] then [] else [(ascii "http", .array (out.http.map HttpRecord.toJson))])

namespace ConversationRecordReader

theorem readRecord_toJson (out : OutRecord Rat) :
    readRecord out.toJson =
      .ok
        { key := (Json.float out.ts).getLongValue
          tuple :=
            { src := some out.src
              sport := (Json.int out.sport).getIntValue
              dst := some out.dst
              dport := (Json.int out.dport).getIntValue
              endState := some out.endState
              timestamps := (out.timestamps.foldl addTimestamp ⟨0, [], []⟩).timestamps
              intervals := (out.timestamps.foldl addTimestamp ⟨0, [], []⟩).intervals } } := by
  have doubles : (out.timestamps.map Json.float).map Json.getDoubleValue = out.timestamps := by
    rw [List.map_map]
    exact List.map_id out.timestamps
  have times : readTimes (out.timestamps.map Json.float) =
      out.timestamps.foldl addTimestamp ⟨0, [], []⟩ := by
    rw [readTimes, doubles]
  rw [← times]
  rfl

private theorem intervals_of_first {first : Rat} (given : first ≠ 0) (later : List Rat)
    (timestamps : List Int) (intervals : List Rat) :
    (later.foldl addTimestamp ⟨first, timestamps, intervals⟩).intervals =
      intervals ++ later.map (fun curr => curr - first) := by
  induction later generalizing timestamps intervals with
  | nil => exact (List.append_nil intervals).symm
  | cons curr later ih =>
      have step : addTimestamp ⟨first, timestamps, intervals⟩ curr =
          ⟨first, timestamps ++ [(Json.float curr).getLongValue],
            intervals ++ [curr - first]⟩ := by
        simp only [addTimestamp, if_neg given]
      rw [List.foldl_cons, step, ih, List.map_cons, List.append_assoc, List.singleton_append]

theorem intervals_eq (times : List Rat) (timestamps : List Int) :
    (times.foldl addTimestamp ⟨0, timestamps, []⟩).intervals =
      match times.dropWhile (· = 0) with
      | [] => []
      | first :: later => later.map fun curr => curr - first := by
  induction times generalizing timestamps with
  | nil => rfl
  | cons curr later ih =>
      rw [List.foldl_cons]
      by_cases zero : curr = 0
      · have step : addTimestamp ⟨0, timestamps, []⟩ curr =
            ⟨0, timestamps ++ [(Json.float curr).getLongValue], []⟩ := by
          simp only [addTimestamp, if_true, zero]
        rw [step, ih, List.dropWhile_cons_of_pos (by simpa using zero)]
      · have step : addTimestamp ⟨0, timestamps, []⟩ curr =
            ⟨curr, timestamps ++ [(Json.float curr).getLongValue], []⟩ := by
          simp only [addTimestamp, if_true]
        rw [step, intervals_of_first zero, List.dropWhile_cons_of_neg (by simpa using zero)]
        rfl

/-- There is one timestamp only, or the first one is not 0 and all but the last
are equal to it. -/
def AllButLastEqual (times : List Rat) : Prop :=
  times.tail = [] ∨ times.head? ≠ some 0 ∧ ∀ time ∈ times.dropLast, some time = times.head?

private theorem intervals_eq_differences_iff (first : Rat) (later : List Rat) :
    ((first :: later).foldl addTimestamp ⟨0, [], []⟩).intervals = differences (first :: later) ↔
      AllButLastEqual (first :: later) := by
  rw [intervals_eq]
  unfold AllButLastEqual
  simp only [List.tail_cons, List.head?_cons, Option.some.injEq, ne_eq]
  by_cases zero : first = 0
  · rw [List.dropWhile_cons_of_pos (by simpa using zero)]
    simp only [zero, not_true_eq_false, false_and, or_false]
    constructor
    · intro same
      have length := congrArg List.length same
      rw [differences_length, List.length_cons, Nat.add_sub_cancel] at length
      have fewer : (later.dropWhile (· = 0)).length ≤ later.length :=
        (List.dropWhile_suffix _).length_le
      cases rest : later.dropWhile (· = 0) with
      | nil =>
          rw [rest] at length
          exact List.eq_nil_of_length_eq_zero length.symm
      | cons reference others =>
          rw [rest] at length fewer
          simp only [List.length_map, List.length_cons] at length fewer
          omega
    · intro alone
      subst alone
      rfl
  · rw [List.dropWhile_cons_of_neg (by simpa using zero), map_sub_eq_differences_iff]
    constructor
    · intro equal
      exact .inr ⟨zero, equal⟩
    · intro cases
      rcases cases with alone | ⟨-, equal⟩
      · subst alone
        exact fun item member => by cases member
      · exact equal

/-- The row holds the intervals between neighbouring packets, and they add up to
the time from the first packet to the last. -/
def ReturnsIntervals (json : JsonLines) (out : OutRecord Rat) (line : Bytes) : Prop :=
  ∀ rest, ∃ keyed, nextKeyValue json (line ++ lineFeed :: rest) = .item keyed rest ∧
    keyed.tuple.intervals = differences out.timestamps ∧
    keyed.tuple.intervals.sum =
      out.timestamps.getLast?.getD 0 - out.timestamps.head?.getD 0

private theorem nextKeyValue_line (json : JsonLines) {out : OutRecord Rat} {line : Bytes}
    (printed : json.dumps out.toJson = some line) (rest : Bytes) :
    ∃ keyed, nextKeyValue json (line ++ lineFeed :: rest) = .item keyed rest ∧
      keyed.tuple.intervals = (out.timestamps.foldl addTimestamp ⟨0, [], []⟩).intervals := by
  obtain ⟨noFeed, noReturn⟩ := json.plain _ _ printed
  have read := JavaText.readLine_append line rest noFeed noReturn
  have value := json.readValue_dumps _ _ printed
  obtain ⟨keyed, record, intervals⟩ : ∃ keyed, readRecord out.toJson = .ok keyed ∧
      keyed.tuple.intervals = (out.timestamps.foldl addTimestamp ⟨0, [], []⟩).intervals :=
    ⟨_, readRecord_toJson out, rfl⟩
  refine ⟨keyed, ?_, intervals⟩
  simp only [nextKeyValue, read, value, record]

/-- The intervals are those between neighbours exactly if all timestamps but the
last are the same one, and not 0. -/
theorem returnsIntervals_iff (json : JsonLines) {out : OutRecord Rat} {line : Bytes}
    (printed : json.dumps out.toJson = some line) (packets : out.timestamps ≠ []) :
    ReturnsIntervals json out line ↔ AllButLastEqual out.timestamps := by
  obtain ⟨first, later, times⟩ := List.exists_cons_of_ne_nil packets
  rw [times, ← intervals_eq_differences_iff, ← times]
  constructor
  · intro returned
    obtain ⟨keyed, read, intervals, -⟩ := returned []
    obtain ⟨keyed', read', intervals'⟩ := nextKeyValue_line json printed []
    rw [read] at read'
    cases read'
    rw [← intervals', intervals]
  · intro same rest
    obtain ⟨keyed, read, intervals⟩ := nextKeyValue_line json printed rest
    refine ⟨keyed, read, intervals.trans same, ?_⟩
    rw [intervals, same, times, sum_differences, List.getLast?_cons, List.head?_cons]
    rfl

def conversationOf (timestamps : List Rat) : OutRecord Rat :=
  { ts := timestamps.head?.getD 0
    timestamps
    src := ascii "10.0.0.1"
    sport := 40000
    dst := ascii "10.0.0.2"
    dport := 22
    endState := ascii "close"
    cdata := none
    sdata := none
    cdatalen := 0
    sdatalen := 0
    http := [] }

def conversationEnd : Bytes :=
  ascii "\"src\": \"10.0.0.1\", \"sport\": 40000, \"dst\": \"10.0.0.2\", \"dport\": 22, " ++
    ascii "\"end_state\": \"close\", \"cdatalen\": 0, \"sdatalen\": 0\x7d"

def twoPackets : Bytes := ascii "\x7b\"ts\": 1.0, \"timestamps\": [1.0, 2.5], " ++ conversationEnd

def threePackets : Bytes :=
  ascii "\x7b\"ts\": 1.0, \"timestamps\": [1.0, 2.0, 3.0], " ++ conversationEnd

set_option maxRecDepth 4000 in
private theorem dots_conversationEnd : ∀ letter ∈ conversationEnd, JavaText.dot letter = true :=
  List.all_eq_true.mp rfl

theorem twoPackets_plain : lineFeed ∉ twoPackets ∧ carriageReturn ∉ twoPackets :=
  JavaText.plain_of_dots
    (List.forall_mem_append.mpr ⟨List.all_eq_true.mp rfl, dots_conversationEnd⟩)

private theorem threePackets_plain : lineFeed ∉ threePackets ∧ carriageReturn ∉ threePackets :=
  JavaText.plain_of_dots
    (List.forall_mem_append.mpr ⟨List.all_eq_true.mp rfl, dots_conversationEnd⟩)

theorem returnsIntervals_two :
    ReturnsIntervals (JsonLines.single (conversationOf [1, 5 / 2]).toJson twoPackets
      twoPackets_plain) (conversationOf [1, 5 / 2]) twoPackets :=
  (returnsIntervals_iff _ (JsonLines.single_dumps _ _ _) (List.cons_ne_nil _ _)).mpr
    (.inr ⟨by decide, by simp [conversationOf]⟩)

theorem third_interval_from_first :
    ¬ ReturnsIntervals (JsonLines.single (conversationOf [1, 2, 3]).toJson threePackets
      threePackets_plain) (conversationOf [1, 2, 3]) threePackets := by
  intro returned
  obtain ⟨keyed, read, intervals, -⟩ := returned []
  obtain ⟨keyed', read', intervals'⟩ := nextKeyValue_line
    (JsonLines.single (conversationOf [1, 2, 3]).toJson threePackets threePackets_plain)
    (JsonLines.single_dumps _ _ _) []
  rw [read] at read'
  cases read'
  have same := (intervals_eq_differences_iff 1 [2, 3]).mp (intervals'.symm.trans intervals)
  rcases same with alone | ⟨-, equal⟩
  · cases alone
  · have second := Option.some.inj (equal 2 (by simp))
    norm_num at second

end ConversationRecordReader

end Packetpig
