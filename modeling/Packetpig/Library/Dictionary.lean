/-
Dictionaries as lists of entries in the order in which their keys were first
assigned: assigning to a key that is there replaces its value.
-/

import Mathlib.Data.List.Nodup

namespace Packetpig.Dictionary

variable {κ α : Type} [DecidableEq κ]

def assign (entries : List (κ × α)) (entry : κ × α) : List (κ × α) :=
  if entries.any fun other => other.1 = entry.1 then
    entries.map fun other => if other.1 = entry.1 then entry else other
  else entries ++ [entry]

def get (entries : List (κ × α)) (key : κ) : Option α :=
  (entries.find? fun entry => entry.1 = key).map Prod.snd

def ofAssignments (assignments : List (κ × α)) : List (κ × α) := assignments.foldl assign []

theorem assign_new {entries : List (κ × α)} {entry : κ × α}
    (absent : entry.1 ∉ entries.map Prod.fst) : assign entries entry = entries ++ [entry] := by
  refine if_neg fun found => absent ?_
  obtain ⟨other, member, same⟩ := List.any_eq_true.mp found
  exact of_decide_eq_true same ▸ List.mem_map_of_mem member

theorem ofAssignments_of_nodup {assignments : List (κ × α)}
    (once : (assignments.map Prod.fst).Nodup) : ofAssignments assignments = assignments := by
  have appended : ∀ entries : List (κ × α), ((entries ++ assignments).map Prod.fst).Nodup →
      assignments.foldl assign entries = entries ++ assignments := by
    clear once
    induction assignments with
    | nil => exact fun entries _ => (List.append_nil entries).symm
    | cons entry assignments ih =>
        intro entries once
        have absent : entry.1 ∉ entries.map Prod.fst := by
          rw [List.map_append, List.map_cons] at once
          exact fun there => (List.nodup_append.mp once).2.2 _ there _ List.mem_cons_self rfl
        rw [List.append_cons] at once ⊢
        rw [List.foldl_cons, assign_new absent]
        exact ih _ once
  exact appended [] once

theorem get_of_mem {entries : List (κ × α)} (once : (entries.map Prod.fst).Nodup)
    {entry : κ × α} (member : entry ∈ entries) : get entries entry.1 = some entry.2 := by
  induction entries with
  | nil => exact absurd member List.not_mem_nil
  | cons first entries ih =>
      obtain ⟨absent, once⟩ := List.nodup_cons.mp once
      rcases List.mem_cons.mp member with rfl | later
      · rw [get, List.find?_cons_of_pos (by simp)]
        rfl
      · have other : first.1 ≠ entry.1 := fun same => absent (same ▸ List.mem_map_of_mem later)
        rw [get, List.find?_cons_of_neg (by simp [other])]
        exact ih once later

theorem get_eq_none {entries : List (κ × α)} {key : κ} (absent : key ∉ entries.map Prod.fst) :
    get entries key = none := by
  rw [get, Option.map_eq_none_iff, List.find?_eq_none]
  intro entry member same
  exact absent (of_decide_eq_true same ▸ List.mem_map_of_mem member)

theorem mem_of_get {entries : List (κ × α)} {key : κ} {value : α}
    (found : get entries key = some value) : (key, value) ∈ entries := by
  obtain ⟨entry, isFound, same⟩ := Option.map_eq_some_iff.mp found
  have isKey : entry.1 = key := by simpa using List.find?_some isFound
  rw [← same, ← isKey]
  exact List.mem_of_find?_eq_some isFound

theorem mem_assign {entries : List (κ × α)} {entry other : κ × α}
    (member : other ∈ assign entries entry) : other ∈ entries ∨ other = entry := by
  unfold assign at member
  split at member
  · obtain ⟨before, inEntries, same⟩ := List.mem_map.mp member
    split at same
    · exact .inr same.symm
    · exact .inl (same ▸ inEntries)
  · exact (List.mem_append.mp member).imp_right List.mem_singleton.mp

theorem ofAssignments_subset (assignments : List (κ × α)) :
    ofAssignments assignments ⊆ assignments := by
  have added : ∀ entries other, other ∈ assignments.foldl assign entries →
      other ∈ entries ∨ other ∈ assignments := by
    induction assignments with
    | nil => exact fun entries other member => .inl member
    | cons entry assignments ih =>
        intro entries other member
        rcases ih (assign entries entry) other member with earlier | later
        · rcases mem_assign earlier with before | same
          · exact .inl before
          · exact .inr (List.mem_cons.mpr (.inl same))
        · exact .inr (List.mem_cons_of_mem _ later)
  intro other member
  exact (added [] other member).resolve_left List.not_mem_nil

end Packetpig.Dictionary
