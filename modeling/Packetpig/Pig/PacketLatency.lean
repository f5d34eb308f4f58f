/-
The script packet_latency_histogram.pig over the conversations of a capture: how
many intervals each number of milliseconds has.
-/

import Packetpig.Conversation.CapturedConversations
import Packetpig.Library.Groups

namespace Packetpig

open Text StreamHandler ConversationRecordReader

/-- `exec` of the UDF: a bag of the items of all tuples. -/
def Explode.exec {α : Type} (input : List (List α)) : List α :=
  input.flatMap fun tuple => tuple

namespace PacketLatency

open Groups

/-- The first two `FOREACH`, with the cast `(int)((double)interval * 1000)` as a
parameter. -/
def intervals (bucket : Rat → Int) (conversations : List (Keyed ConversationRow)) : List Int :=
  (conversations.flatMap fun row => Explode.exec [row.tuple.intervals]).map bucket

/-- `GROUP r BY interval` and `COUNT`. -/
def script (bucket : Rat → Int) (conversations : List (Keyed ConversationRow)) :
    List (Int × Nat) :=
  (groupBy id (intervals bucket conversations)).map fun grouped => (grouped.1, grouped.2.length)

theorem intervals_eq_flatten (bucket : Rat → Int) (conversations : List (Keyed ConversationRow)) :
    intervals bucket conversations =
      (conversations.map fun row => row.tuple.intervals).flatten.map bucket := by
  rw [intervals, ← List.flatMap_def]
  simp only [Explode.exec, List.flatMap_cons, List.flatMap_nil, List.append_nil]

theorem mem_script {bucket : Rat → Int} {conversations : List (Keyed ConversationRow)}
    {place : Int} {count : Nat} :
    (place, count) ∈ script bucket conversations ↔
      count ≠ 0 ∧ count = (intervals bucket conversations).count place := by
  rw [script, groupBy, table_map, table, List.mem_map, List.map_id]
  simp only [group_id_length, List.mem_dedup, Prod.mk.injEq]
  constructor
  · rintro ⟨_, member, rfl, rfl⟩
    exact ⟨(List.count_pos_iff.mpr member).ne', rfl⟩
  · rintro ⟨nonzero, rfl⟩
    exact ⟨place, List.count_pos_iff.mp (Nat.pos_of_ne_zero nonzero), rfl, rfl⟩

theorem sum_script (bucket : Rat → Int) (conversations : List (Keyed ConversationRow)) :
    ((script bucket conversations).map Prod.snd).sum =
      (conversations.map fun row => row.tuple.intervals.length).sum := by
  have placed : ∀ place ∈ intervals bucket conversations,
      id place ∈ ((intervals bucket conversations).map id).dedup := by
    intro place member
    rw [List.map_id]
    exact List.mem_dedup.mpr member
  have sums := sum_length_group (List.nodup_dedup _) placed
  rw [script, groupBy, table_map, table, List.map_map]
  refine sums.trans ?_
  rw [intervals_eq_flatten, List.length_map, List.length_flatten, List.map_map]
  rfl

/-- The time of each packet but the first, less that of the first. -/
def sinceFirst (stamps : List Rat) : List Rat := stamps.tail.map fun time => time - stamps.headD 0

theorem rowOf_intervals {κ : Type} {stamps : List Rat} (set : ∀ time ∈ stamps, time ≠ 0)
    (event : Event κ Rat) : (rowOf stamps event).tuple.intervals = sinceFirst stamps := by
  rw [rowOf]
  dsimp only
  rw [intervals_eq]
  cases stamps with
  | nil => rfl
  | cons first later =>
      have given := set first List.mem_cons_self
      rw [List.dropWhile_cons_of_neg (by simpa using given)]
      rfl

section Rows

variable {κ : Type} {settings : StreamSettings Rat} {events : List (Event κ Rat)}

private theorem times_ne_zero (set : ∀ event ∈ events, event.pktTs ≠ 0)
    {segment : List (Event κ Rat) × Event κ Rat}
    (member : segment ∈ segments (processed settings events)) :
    ∀ time ∈ times segment, time ≠ 0 := by
  intro time inTimes
  have inFlat := List.mem_flatMap.mpr ⟨segment, member, inTimes⟩
  obtain ⟨event, inEvents, rfl⟩ :=
    List.mem_map.mp ((times_sublist (processed settings events)).subset inFlat)
  exact set event ((List.takeWhile_sublist _).subset inEvents)

private theorem intervals_capturedRows (set : ∀ event ∈ events, event.pktTs ≠ 0) :
    (capturedRows settings events).map (fun row => row.tuple.intervals) =
      (segments (processed settings events)).map fun segment => sinceFirst (times segment) := by
  rw [capturedRows, List.map_map]
  apply List.map_congr_left
  intro segment member
  exact rowOf_intervals (times_ne_zero set member) segment.2

private theorem sinceFirst_length (segment : List (Event κ Rat) × Event κ Rat) :
    (sinceFirst (times segment)).length + 1 = (times segment).length := by
  simp [sinceFirst, times]

/-- From the events of a capture to the histogram: a number of milliseconds counts
the packets so long after the first one of their row, whether or not others came
between. -/
theorem histogram_counts (format : settings.outputFormat = ascii "json") (json : JsonLines)
    {text : Bytes}
    (printed : printedText json ((runTrace settings [] events).flatMap Prod.snd) = some text)
    (set : ∀ event ∈ events, event.pktTs ≠ 0) (bucket : Rat → Int) :
    ∃ rows final, Yields (nextKeyValue json) text rows .returnedFalse final ∧
      (∀ place count, (place, count) ∈ script bucket rows ↔ count ≠ 0 ∧
        count = ((segments (processed settings events)).map fun segment =>
          (sinceFirst (times segment)).countP (bucket · = place)).sum) ∧
      ((script bucket rows).map Prod.snd).sum +
          ((processed settings events).filter Event.isEnd).length =
        (rows.flatMap fun row => row.tuple.timestamps).length := by
  obtain ⟨final, yields⟩ := yields_capturedRows format json events printed
  have areIntervals := @intervals_capturedRows κ settings events set
  refine ⟨_, final, yields, ?_, ?_⟩
  · intro place count
    rw [mem_script, intervals_eq_flatten, areIntervals, ← List.flatMap_def, List.count,
      List.countP_map, List.countP_flatMap]
    rfl
  · have lengths : (capturedRows settings events).map (fun row => row.tuple.intervals.length) =
        (segments (processed settings events)).map fun segment =>
          (sinceFirst (times segment)).length := by
      have mapped := congrArg (List.map List.length) areIntervals
      rw [List.map_map, List.map_map] at mapped
      exact mapped
    have stamps : ∀ segment : List (Event κ Rat) × Event κ Rat,
        ((rowOf (times segment) segment.2).tuple.timestamps).length =
          (sinceFirst (times segment)).length + 1 := by
      intro segment
      rw [sinceFirst_length]
      exact List.length_map _
    rw [sum_script, lengths, ← segments_finals, List.length_map, capturedRows, List.flatMap_map,
      List.length_flatMap, List.map_congr_left fun segment _ => stamps segment, List.sum_map_add]
    simp

theorem histogram_counts_two_packets :
    ∃ rows final, Yields (nextKeyValue (JsonLines.single (conversationOf [1, 5 / 2]).toJson
        twoPackets twoPackets_plain)) (twoPackets ++ [lineFeed]) rows .returnedFalse final ∧
      (1500, 1) ∈ script (fun interval => stamp (interval * 1000)) rows := by
  have set : ∀ event ∈ [shortEvent 1 .justEst, shortEvent (5 / 2) .close],
      event.pktTs ≠ 0 := by decide +kernel
  obtain ⟨rows, final, yields, counts, -⟩ := @histogram_counts Unit rationalSettings
    [shortEvent 1 .justEst, shortEvent (5 / 2) .close] rfl _ _
    printedText_twoPackets set fun interval => stamp (interval * 1000)
  refine ⟨rows, final, yields, (counts 1500 1).mpr ⟨by decide, ?_⟩⟩
  decide +kernel

end Rows

end PacketLatency

end Packetpig
