/-
The script snort_comparison.pig: the alerts that a newer snort raises for a capture
and an older one does not, by their signatures.
-/

import Packetpig.Detection.SnortRecordReader
import Packetpig.Library.Groups

namespace Packetpig.SnortComparison

open Text Groups

def sig (alert : Keyed SnortTuple) : Bytes := alert.tuple.sig

variable (snortOldAlerts snortNewAlerts : List (Keyed SnortTuple))

/-- `COGROUP snort_old_alerts BY sig, snort_new_alerts BY sig`. -/
def snortJoined : List (Bytes × List (Keyed SnortTuple) × List (Keyed SnortTuple)) :=
  cogroup sig sig snortOldAlerts snortNewAlerts

def newOnlyFiltered : List (Bytes × List (Keyed SnortTuple) × List (Keyed SnortTuple)) :=
  (snortJoined snortOldAlerts snortNewAlerts).filter fun joined => joined.2.1.length = 0

def newOnlyFlattened : List (Keyed SnortTuple) :=
  (newOnlyFiltered snortOldAlerts snortNewAlerts).flatMap fun joined => joined.2.2

def newOnlySummary : List (Bytes × Nat) :=
  (newOnlyFiltered snortOldAlerts snortNewAlerts).map fun joined => (joined.1, joined.2.2.length)

def raises (alerts : List (Keyed SnortTuple)) (wanted : Bytes) : Bool :=
  alerts.any fun alert => sig alert = wanted

def newSigs : List Bytes :=
  (snortOldAlerts.map sig ++ snortNewAlerts.map sig).dedup.filter fun wanted =>
    !raises snortOldAlerts wanted

/-- The alerts whose signature the older snort has not raised. -/
def unseen : List (Keyed SnortTuple) :=
  snortNewAlerts.filter fun alert => !raises snortOldAlerts (sig alert)

variable {snortOldAlerts snortNewAlerts}

theorem raises_iff {alerts : List (Keyed SnortTuple)} {wanted : Bytes} :
    raises alerts wanted = true ↔ wanted ∈ alerts.map sig := by
  rw [raises, List.any_eq_true, List.mem_map]
  simp only [decide_eq_true_eq]

theorem group_length_eq_zero {alerts : List (Keyed SnortTuple)} {wanted : Bytes} :
    (group sig alerts wanted).length = 0 ↔ raises alerts wanted = false := by
  rw [List.length_eq_zero_iff, group, List.filter_eq_nil_iff, raises, List.any_eq_false]

theorem newOnlyFiltered_eq :
    newOnlyFiltered snortOldAlerts snortNewAlerts =
      table (newSigs snortOldAlerts snortNewAlerts) fun wanted =>
        (group sig snortOldAlerts wanted, group sig snortNewAlerts wanted) := by
  rw [newOnlyFiltered, snortJoined, cogroup, table, List.filter_map, table, newSigs]
  congr 2
  funext wanted
  rw [Bool.eq_iff_iff, Bool.not_eq_true']
  exact decide_eq_true_iff.trans group_length_eq_zero

theorem mem_newSigs {wanted : Bytes} :
    wanted ∈ newSigs snortOldAlerts snortNewAlerts ↔
      wanted ∈ snortNewAlerts.map sig ∧ raises snortOldAlerts wanted = false := by
  rw [newSigs, List.mem_filter, List.mem_dedup, List.mem_append, Bool.not_eq_true']
  constructor
  · rintro ⟨old | new, absent⟩
    · rw [raises_iff.mpr old] at absent
      cases absent
    · exact ⟨new, absent⟩
  · rintro ⟨new, absent⟩
    exact ⟨.inr new, absent⟩

theorem flattened_perm :
    (newOnlyFlattened snortOldAlerts snortNewAlerts).Perm
      (unseen snortOldAlerts snortNewAlerts) := by
  have once : (newSigs snortOldAlerts snortNewAlerts).Nodup := (List.nodup_dedup _).filter _
  rw [newOnlyFlattened, newOnlyFiltered_eq, table, List.flatMap_map]
  refine flatMap_group_perm once fun alert member => ?_
  rw [mem_newSigs, Bool.not_eq_true']
  exact (and_iff_right (List.mem_map_of_mem member)).symm

theorem summary_eq : newOnlySummary snortOldAlerts snortNewAlerts =
    table (newSigs snortOldAlerts snortNewAlerts) fun wanted =>
      (group sig snortNewAlerts wanted).length := by
  rw [newOnlySummary, newOnlyFiltered_eq]
  exact table_map _ _ fun joined : List (Keyed SnortTuple) × List (Keyed SnortTuple) =>
    joined.2.length

theorem countP_unseen (wanted : Bytes) :
    (unseen snortOldAlerts snortNewAlerts).countP (sig · = wanted) =
      if raises snortOldAlerts wanted then 0 else (group sig snortNewAlerts wanted).length := by
  rw [unseen, List.countP_filter]
  split
  · rename_i old
    rw [List.countP_eq_zero]
    intro alert _ both
    rw [Bool.and_eq_true, decide_eq_true_eq, Bool.not_eq_true'] at both
    rw [both.1, old] at both
    cases both.2
  · rename_i absent
    rw [group, ← List.countP_eq_length_filter]
    congr 1
    funext alert
    rw [Bool.eq_iff_iff, Bool.and_eq_true, decide_eq_true_eq, Bool.not_eq_true']
    exact ⟨And.left, fun same => ⟨same, same ▸ Bool.eq_false_of_not_eq_true absent⟩⟩

theorem mem_summary {wanted : Bytes} {count : Nat} :
    (wanted, count) ∈ newOnlySummary snortOldAlerts snortNewAlerts ↔
      count ≠ 0 ∧ count = (unseen snortOldAlerts snortNewAlerts).countP (sig · = wanted) := by
  rw [summary_eq, table, List.mem_map, countP_unseen]
  constructor
  · rintro ⟨_, member, same⟩
    cases same
    obtain ⟨new, absent⟩ := mem_newSigs.mp member
    rw [absent]
    refine ⟨fun zero => ?_, rfl⟩
    rw [group_length_eq_zero, raises_iff.mpr new] at zero
    cases zero
  · rintro ⟨nonzero, same⟩
    split at same
    · exact absurd same nonzero
    · rename_i absent
      have new : wanted ∈ snortNewAlerts.map sig := by
        by_contra none
        rw [← raises_iff, Bool.not_eq_true, ← group_length_eq_zero] at none
        exact nonzero (same.trans none)
      exact ⟨wanted, mem_newSigs.mpr ⟨new, Bool.eq_false_of_not_eq_true absent⟩,
        Prod.ext rfl same.symm⟩

/-- The one output has the alerts with a signature that no old alert has, each as
often as the newer snort raised it; the other has their number for each of these
signatures. -/
theorem new_alerts (snortOldAlerts snortNewAlerts : List (Keyed SnortTuple)) :
    (newOnlyFlattened snortOldAlerts snortNewAlerts).Perm
        (unseen snortOldAlerts snortNewAlerts) ∧
      ((newOnlySummary snortOldAlerts snortNewAlerts).map Prod.fst).Nodup ∧
      (∀ wanted count, (wanted, count) ∈ newOnlySummary snortOldAlerts snortNewAlerts ↔
        count ≠ 0 ∧ count = (unseen snortOldAlerts snortNewAlerts).countP (sig · = wanted)) ∧
      ((newOnlySummary snortOldAlerts snortNewAlerts).map Prod.snd).sum =
        (unseen snortOldAlerts snortNewAlerts).length := by
  refine ⟨flattened_perm, ?_, fun wanted count => mem_summary, ?_⟩
  · rw [summary_eq, table, List.map_map]
    change ((newSigs snortOldAlerts snortNewAlerts).map id).Nodup
    rw [List.map_id]
    exact (List.nodup_dedup _).filter _
  · rw [← flattened_perm.length_eq, newOnlyFlattened, List.length_flatMap, newOnlySummary,
      List.map_map]
    rfl

end Packetpig.SnortComparison
