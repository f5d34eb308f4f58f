/-
The script snort_breakdown.pig: the numbers of alerts with the priorities 1 and 3
in bins of `$time` seconds, where `$time` is not 0. Of priority 2 the script has
a summary that it does not store.
-/

import Packetpig.Detection.SnortRecordReader
import Packetpig.Library.Bins
import Packetpig.Library.Groups

namespace Packetpig

structure BreakdownRow where
  group : Option Int
  prio1_count : Option Nat
  prio3_count : Option Nat
deriving DecidableEq, Repr

namespace SnortBreakdown

open Groups

/-- `ts / $time * $time`. -/
def bin (time : Int) (alert : Keyed SnortTuple) : Int := Bins.bin time alert.key

def prio (level : Int) (alerts : List (Keyed SnortTuple)) : List (Keyed SnortTuple) :=
  alerts.filter fun alert => alert.tuple.priority = level

/-- `GROUP` by the bin and `COUNT`. -/
def prioSummary (time level : Int) (alerts : List (Keyed SnortTuple)) : List (Int × Nat) :=
  (groupBy (bin time) (prio level alerts)).map fun grouped => (grouped.1, grouped.2.length)

def prio1Summary (time : Int) (alerts : List (Keyed SnortTuple)) : List (Int × Nat) :=
  prioSummary time 1 alerts

def prio3Summary (time : Int) (alerts : List (Keyed SnortTuple)) : List (Int × Nat) :=
  prioSummary time 3 alerts

/-- `JOIN prio1_summary BY group full, prio3_summary BY group`, and the last
`FOREACH`, which takes the bin from the left side only. -/
def summary (time : Int) (alerts : List (Keyed SnortTuple)) : List BreakdownRow :=
  (fullJoin (prio1Summary time alerts) (prio3Summary time alerts)).map fun joined =>
    { group := joined.1.map Prod.fst
      prio1_count := joined.1.map Prod.snd
      prio3_count := joined.2.map Prod.snd }

def inBin (time level : Int) (alerts : List (Keyed SnortTuple)) (start : Int) : Nat :=
  alerts.countP fun alert => alert.tuple.priority = level ∧ bin time alert = start

/-- A count of the output, which has no 0. -/
def shown (count : Nat) : Option Nat := if count = 0 then none else some count

def rowOf (time : Int) (alerts : List (Keyed SnortTuple)) (start : Int) : BreakdownRow :=
  { group := if inBin time 1 alerts start = 0 then none else some start
    prio1_count := shown (inBin time 1 alerts start)
    prio3_count := shown (inBin time 3 alerts start) }

theorem shown_getD (count : Nat) : (shown count).getD 0 = count := by
  unfold shown
  split
  · rename_i zero
    exact zero.symm
  · rfl

theorem inBin_eq_length (time level : Int) (alerts : List (Keyed SnortTuple)) (start : Int) :
    inBin time level alerts start = (group (bin time) (prio level alerts) start).length := by
  rw [inBin, group, prio, List.filter_filter, List.countP_eq_length_filter]
  congr 2
  funext alert
  rw [← Bool.decide_and, decide_eq_decide, and_comm]

theorem inBin_ne_zero {time level : Int} {alerts : List (Keyed SnortTuple)} {start : Int} :
    inBin time level alerts start ≠ 0 ↔
      ∃ alert ∈ alerts, alert.tuple.priority = level ∧ bin time alert = start := by
  rw [inBin, ← Nat.pos_iff_ne_zero, List.countP_pos_iff]
  simp only [decide_eq_true_eq]

def bins (time level : Int) (alerts : List (Keyed SnortTuple)) : List Int :=
  ((prio level alerts).map (bin time)).dedup

theorem bins_nodup (time level : Int) (alerts : List (Keyed SnortTuple)) :
    (bins time level alerts).Nodup := List.nodup_dedup _

theorem mem_bins {time level : Int} {alerts : List (Keyed SnortTuple)} {start : Int} :
    start ∈ bins time level alerts ↔ inBin time level alerts start ≠ 0 := by
  rw [inBin_ne_zero, bins, List.mem_dedup, List.mem_map]
  simp only [prio, List.mem_filter, decide_eq_true_eq, and_assoc]

theorem prioSummary_eq (time level : Int) (alerts : List (Keyed SnortTuple)) :
    prioSummary time level alerts = table (bins time level alerts) (inBin time level alerts) := by
  rw [prioSummary, groupBy, table_map]
  apply List.map_congr_left
  intro start _
  rw [inBin_eq_length]

def places (time : Int) (alerts : List (Keyed SnortTuple)) : List Int :=
  (bins time 1 alerts ++ bins time 3 alerts).dedup

theorem mem_places {time start : Int} {alerts : List (Keyed SnortTuple)} :
    start ∈ places time alerts ↔
      inBin time 1 alerts start ≠ 0 ∨ inBin time 3 alerts start ≠ 0 := by
  rw [places, List.mem_dedup, List.mem_append, mem_bins, mem_bins]

theorem summary_eq (time : Int) (alerts : List (Keyed SnortTuple)) :
    summary time alerts = (places time alerts).map (rowOf time alerts) := by
  rw [summary, prio1Summary, prio3Summary, prioSummary_eq, prioSummary_eq,
    fullJoin_table (bins_nodup _ _ _) (bins_nodup _ _ _), List.map_map]
  apply List.map_congr_left
  intro start _
  have column : ∀ level, (if start ∈ bins time level alerts then
      some (start, inBin time level alerts start) else none) =
        (shown (inBin time level alerts start)).map (Prod.mk start) := by
    intro level
    unfold shown
    by_cases zero : inBin time level alerts start = 0
    · rw [if_pos zero, if_neg fun member => mem_bins.mp member zero]
      rfl
    · rw [if_neg zero, if_pos (mem_bins.mpr zero)]
      rfl
  simp only [Function.comp_apply, column, Option.map_map]
  rw [rowOf]
  congr 1
  · unfold shown
    split
    · rfl
    · rfl
  · exact Option.map_id'
  · exact Option.map_id'

theorem sum_inBin {time level : Int} (alerts : List (Keyed SnortTuple))
    (stored : ∀ start, inBin time level alerts start ≠ 0 → start ∈ places time alerts) :
    ((places time alerts).map (inBin time level alerts)).sum =
      alerts.countP fun alert => alert.tuple.priority = level := by
  have placed : ∀ alert ∈ prio level alerts, bin time alert ∈ places time alerts := by
    intro alert member
    obtain ⟨inAlerts, isLevel⟩ := List.mem_filter.mp member
    exact stored _ (inBin_ne_zero.mpr ⟨alert, inAlerts, of_decide_eq_true isLevel, rfl⟩)
  have sums := sum_length_group (List.nodup_dedup _) placed
  rw [prio, ← List.countP_eq_length_filter] at sums
  rw [List.map_congr_left fun start _ => inBin_eq_length time level alerts start]
  exact sums

theorem named_iff {time start : Int} {alerts : List (Keyed SnortTuple)} :
    (∃ row ∈ summary time alerts, row.group = some start) ↔ inBin time 1 alerts start ≠ 0 := by
  rw [summary_eq]
  constructor
  · rintro ⟨row, member, named⟩
    obtain ⟨place, -, rfl⟩ := List.mem_map.mp member
    rw [rowOf] at named
    dsimp only at named
    split at named
    · cases named
    · rename_i occupied
      cases named
      exact occupied
  · intro occupied
    exact ⟨_, List.mem_map_of_mem (mem_places.mpr (.inl occupied)), if_neg occupied⟩

/-- Every alert of the two priorities is counted once, in a row of its bin. But a
bin without alerts of priority 1 is not named in its row. -/
theorem summary_rows (time : Int) (alerts : List (Keyed SnortTuple)) :
    (∃ starts : List Int, starts.Nodup ∧
      (∀ start, start ∈ starts ↔ ∃ alert ∈ alerts,
        (alert.tuple.priority = 1 ∨ alert.tuple.priority = 3) ∧ bin time alert = start) ∧
      summary time alerts = starts.map (rowOf time alerts)) ∧
    ((summary time alerts).map fun row => row.prio1_count.getD 0).sum =
      alerts.countP (fun alert => alert.tuple.priority = 1) ∧
    ((summary time alerts).map fun row => row.prio3_count.getD 0).sum =
      alerts.countP (fun alert => alert.tuple.priority = 3) ∧
    ((∀ alert ∈ alerts, alert.tuple.priority = 3 →
        ∃ row ∈ summary time alerts, row.group = some (bin time alert)) ↔
      ∀ alert ∈ alerts, alert.tuple.priority = 3 →
        ∃ other ∈ alerts, other.tuple.priority = 1 ∧ bin time other = bin time alert) := by
  have rows := summary_eq time alerts
  have first : (fun row : BreakdownRow => row.prio1_count.getD 0) ∘ rowOf time alerts =
      inBin time 1 alerts := funext fun start => shown_getD _
  have third : (fun row : BreakdownRow => row.prio3_count.getD 0) ∘ rowOf time alerts =
      inBin time 3 alerts := funext fun start => shown_getD _
  refine ⟨⟨places time alerts, List.nodup_dedup _, ?_, rows⟩, ?_, ?_, ?_⟩
  · intro start
    rw [mem_places, inBin_ne_zero, inBin_ne_zero, ← exists_or]
    apply exists_congr
    intro alert
    rw [← and_or_left, or_and_right]
  · rw [rows, List.map_map, first]
    exact sum_inBin alerts fun start occupied => mem_places.mpr (.inl occupied)
  · rw [rows, List.map_map, third]
    exact sum_inBin alerts fun start occupied => mem_places.mpr (.inr occupied)
  · apply forall₃_congr
    intro alert _ _
    rw [named_iff, inBin_ne_zero]

end SnortBreakdown

end Packetpig
