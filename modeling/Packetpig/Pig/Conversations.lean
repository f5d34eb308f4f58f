/-
The script conversations.pig: the bytes of each conversation, from a join of the
conversations and the packets of a capture by addresses, ports and bins of
`$time` seconds, where `$time` is not 0.

The sums do not overflow.
-/

import Packetpig.Conversation.ConversationRecordReader
import Packetpig.Library.Bins
import Packetpig.Library.Groups
import Packetpig.Packet.PacketRecordReader

namespace Packetpig.Conversations

open Text Groups

/-- `src`, `sport`, `dst` and `dport`. -/
abbrev FourTuple := Bytes × Int × Bytes × Int

/-- The columns of a relation that the script uses; a join leaves out rows with
a `null` in their key. -/
structure Columns where
  ts : Int
  ends : Option FourTuple
  ip_total_length : Int

def number (row : Keyed (List PacketValue)) (column : Nat) : Int :=
  match row.tuple[column]? with
  | some (.number value) => value
  | _ => 0

def text (row : Keyed (List PacketValue)) (column : Nat) : Option Bytes :=
  match row.tuple[column]? with
  | some (.text value) => value
  | _ => none

/-- The `AS` clause of the packets, by position. -/
def loadPacket (row : Keyed (List PacketValue)) : Columns where
  ts := row.key
  ends := do
    let ip_src ← text row 10
    let ip_dst ← text row 11
    return (ip_src, number row 12, ip_dst, number row 13)
  ip_total_length := number row 3

def loadConversation (row : Keyed ConversationRow) : Columns where
  ts := row.key
  ends := do
    let src ← row.tuple.src
    let dst ← row.tuple.dst
    return (src, row.tuple.sport, dst, row.tuple.dport)
  ip_total_length := 0

theorem loadPacket_row (packetTuple : PacketTuple) :
    loadPacket (PacketRecordReader.row packetTuple) =
      { ts := packetKey packetTuple.packet
        ends := do
          let src ← packetTuple.src
          let dst ← packetTuple.dst
          return (src, packetTuple.sport, dst, packetTuple.dport)
        ip_total_length := packetTuple.totalLen } := rfl

/-- `ts / $time * $time` and the ends. -/
abbrev JoinKey := Int × FourTuple

def keyed (time : Int) (columns : Columns) : Option (JoinKey × Int) :=
  columns.ends.map fun ends => ((Bins.bin time columns.ts, ends), columns.ip_total_length)

/-- The `JOIN`: a key with the entries of the two sides. -/
def joined (time : Int) (conversations packets : List Columns) : List (JoinKey × Int × Int) :=
  innerJoin (conversations.filterMap (keyed time)) (packets.filterMap (keyed time))

/-- `GROUP r BY` the ends and `SUM(r.packets::ip_total_length)`. -/
def script (time : Int) (conversations packets : List Columns) : List Int :=
  (groupBy (fun row => row.1.2) (joined time conversations packets)).map fun grouped =>
    (grouped.2.map fun row => row.2.2).sum

def begun (time : Int) (conversations : List Columns) (key : JoinKey) : Nat :=
  (conversations.filterMap (keyed time)).countP fun entry => entry.1 = key

def packetsOf (time : Int) (packets : List Columns) (ends : FourTuple) : List (JoinKey × Int) :=
  (packets.filterMap (keyed time)).filter fun entry => entry.1.2 = ends

/-- Each packet counts once for every conversation that begins in its bin. -/
def counted (time : Int) (conversations packets : List Columns) (ends : FourTuple) : Int :=
  ((packetsOf time packets ends).map fun entry =>
    (begun time conversations entry.1 : Int) * entry.2).sum

private theorem sum_filter {α : Type} (keep : α → Bool) (amount : α → Int) {rows : List α}
    (nothing : ∀ row ∈ rows, keep row = false → amount row = 0) :
    (rows.map amount).sum = ((rows.filter keep).map amount).sum := by
  induction rows with
  | nil => rfl
  | cons row rows ih =>
      obtain ⟨here, later⟩ := List.forall_mem_cons.mp nothing
      rw [List.map_cons, List.sum_cons, ih later]
      cases kept : keep row with
      | true => rw [List.filter_cons_of_pos kept, List.map_cons, List.sum_cons]
      | false => rw [List.filter_cons_of_neg (by simp [kept]), here kept, zero_add]

theorem groupSum_joined (time : Int) (conversations packets : List Columns) (ends : FourTuple) :
    groupSum (fun row => row.1.2) (fun row => row.2.2) (joined time conversations packets) ends =
      counted time conversations packets ends := by
  have selected := filter_innerJoin (fun key : JoinKey => key.2 = ends)
    (conversations.filterMap (keyed time)) (packets.filterMap (keyed time))
  have amounts : ∀ entry : JoinKey × Int,
      (((conversations.filterMap (keyed time)).filter fun row => row.1.2 = ends).countP
          fun other => other.1 = entry.1) • entry.2 =
        if entry.1.2 = ends then (begun time conversations entry.1 : Int) * entry.2 else 0 := by
    intro entry
    rw [List.countP_filter]
    split
    · rename_i same
      have both : (fun other : JoinKey × Int =>
          decide (other.1 = entry.1) && decide (other.1.2 = ends)) =
          fun other => decide (other.1 = entry.1) := by
        funext other
        rw [← Bool.decide_and, decide_eq_decide]
        exact ⟨And.left, fun equal => ⟨equal, equal ▸ same⟩⟩
      rw [both, nsmul_eq_mul]
      rfl
    · rename_i different
      have none : (conversations.filterMap (keyed time)).countP (fun other =>
          decide (other.1 = entry.1) && decide (other.1.2 = ends)) = 0 := by
        rw [List.countP_eq_zero]
        intro other _ both
        rw [← Bool.decide_and, decide_eq_true_eq] at both
        exact different (both.1 ▸ both.2)
      rw [none, zero_nsmul]
  have sums := sum_innerJoin
    ((conversations.filterMap (keyed time)).filter fun row => row.1.2 = ends)
    (packets.filterMap (keyed time)) fun length : Int => length
  rw [groupSum, group, joined, selected, counted]
  refine sums.trans ?_
  rw [List.map_congr_left fun entry _ => amounts entry, sum_filter fun entry => entry.1.2 = ends]
  · apply congrArg List.sum
    apply List.map_congr_left
    intro entry member
    rw [if_pos (of_decide_eq_true (List.mem_filter.mp member).2)]
  · intro entry _ different
    rw [if_neg (of_decide_eq_false different)]

private theorem weighted_sum {α : Type} (times : α → Nat) (amount : α → Int) {rows : List α}
    (small : ∀ row ∈ rows, 0 ≤ amount row ∧ times row ≤ 1) :
    (rows.map fun row => (times row : Int) * amount row).sum ≤ (rows.map amount).sum ∧
      ((rows.map fun row => (times row : Int) * amount row).sum = (rows.map amount).sum ↔
        ∀ row ∈ rows, times row ≠ 0 ∨ amount row = 0) := by
  induction rows with
  | nil => simp
  | cons row rows ih =>
      obtain ⟨here, later⟩ := List.forall_mem_cons.mp small
      obtain ⟨below, equality⟩ := ih later
      rw [List.map_cons, List.map_cons, List.sum_cons, List.sum_cons, List.forall_mem_cons,
        ← equality]
      rcases Nat.le_one_iff_eq_zero_or_eq_one.mp here.2 with none | one
      · rw [none]
        simp only [Nat.cast_zero, zero_mul, ne_eq, not_true_eq_false, false_or]
        constructor
        · omega
        · omega
      · rw [one]
        simp only [Nat.cast_one, one_mul, ne_eq, one_ne_zero, not_false_eq_true, true_or, true_and]
        constructor
        · omega
        · omega

/-- One sum for each pair of ends that has a conversation and a packet in one bin:
its packets count as often as conversations begin in their bin. Where at most one
begins in each, the sum is that of all packets exactly if one begins in the bin
of every packet that is not empty. -/
theorem script_sums (time : Int) (conversations packets : List Columns) :
    ∃ places : List FourTuple, places.Nodup ∧
      (∀ ends, ends ∈ places ↔
        ∃ entry ∈ packetsOf time packets ends, begun time conversations entry.1 ≠ 0) ∧
      script time conversations packets = places.map (counted time conversations packets) ∧
      ∀ ends, (∀ entry ∈ packetsOf time packets ends,
          0 ≤ entry.2 ∧ begun time conversations entry.1 ≤ 1) →
        (counted time conversations packets ends =
            ((packetsOf time packets ends).map Prod.snd).sum ↔
          ∀ entry ∈ packetsOf time packets ends,
            begun time conversations entry.1 ≠ 0 ∨ entry.2 = 0) := by
  refine ⟨((joined time conversations packets).map fun row => row.1.2).dedup,
    List.nodup_dedup _, ?_, ?_, fun ends small => (weighted_sum _ Prod.snd small).2⟩
  · intro ends
    rw [List.mem_dedup, List.mem_map]
    constructor
    · rintro ⟨row, member, rfl⟩
      obtain ⟨inLeft, inRight⟩ := mem_innerJoin.mp member
      refine ⟨(row.1, row.2.2), List.mem_filter.mpr ⟨inRight, decide_eq_true rfl⟩, ?_⟩
      exact (List.countP_pos_iff.mpr ⟨_, inLeft, decide_eq_true rfl⟩).ne'
    · rintro ⟨entry, member, begins⟩
      obtain ⟨inRight, same⟩ := List.mem_filter.mp member
      obtain ⟨other, inLeft, sameKey⟩ := List.countP_pos_iff.mp (Nat.pos_of_ne_zero begins)
      refine ⟨(entry.1, other.2, entry.2), mem_innerJoin.mpr ⟨?_, inRight⟩, of_decide_eq_true same⟩
      rwa [← of_decide_eq_true sameKey]
  · rw [script, groupBy, table, List.map_map]
    apply List.map_congr_left
    intro ends _
    exact groupSum_joined time conversations packets ends

end Packetpig.Conversations
