/-
Relational operations on lists of rows: grouping by a key, sums over groups and
joins. The order of the results is one of those that a relation allows.
-/

import Mathlib.Algebra.BigOperators.Group.Finset.Piecewise
import Mathlib.Algebra.BigOperators.Group.Finset.Basic
import Mathlib.Algebra.Ring.Nat
import Mathlib.Data.List.Dedup

namespace Packetpig.Groups

variable {α β κ : Type}

/-- One entry for each key. -/
def table (keys : List κ) (entry : κ → β) : List (κ × β) := keys.map fun key => (key, entry key)

section Keys

variable [DecidableEq κ]

def group (key : α → κ) (rows : List α) (wanted : κ) : List α :=
  rows.filter fun row => key row = wanted

/-- One entry for each key that occurs, with its rows. -/
def groupBy (key : α → κ) (rows : List α) : List (κ × List α) :=
  table (rows.map key).dedup (group key rows)

/-- Each pair of a left and a right row with the same key. -/
def innerJoin (left : List (κ × α)) (right : List (κ × β)) : List (κ × α × β) :=
  left.flatMap fun entry =>
    (right.filter fun other => other.1 = entry.1).map fun other => (entry.1, entry.2, other.2)

/-- One entry for each key that occurs on either side, with the rows of both. -/
def cogroup (key : α → κ) (key' : β → κ) (left : List α) (right : List β) :
    List (κ × List α × List β) :=
  table (left.map key ++ right.map key').dedup fun wanted =>
    (group key left wanted, group key' right wanted)

/-- A `null` in place of no rows. -/
def orNull (rows : List α) : List (Option α) :=
  if rows.isEmpty then [none] else rows.map some

/-- Each pair of a left and a right row with the same key, and the rows without a
partner. -/
def fullJoin (left : List (κ × α)) (right : List (κ × β)) :
    List (Option (κ × α) × Option (κ × β)) :=
  (cogroup Prod.fst Prod.fst left right).flatMap fun grouped =>
    (orNull grouped.2.1).flatMap fun row => (orNull grouped.2.2).map fun other => (row, other)

end Keys

theorem table_map {γ : Type} (keys : List κ) (entry : κ → β) (f : β → γ) :
    (table keys entry).map (fun row => (row.1, f row.2)) = table keys fun key => f (entry key) := by
  unfold table
  rw [List.map_map]
  rfl

variable [DecidableEq κ]

theorem group_id_length [BEq κ] [LawfulBEq κ] (rows : List κ) (wanted : κ) :
    (group id rows wanted).length = rows.count wanted := by
  rw [group, ← List.countP_eq_length_filter, List.count]
  exact List.countP_congr fun row _ => by simp

private theorem filter_table {keys : List κ} (once : keys.Nodup) (entry : κ → β) (wanted : κ) :
    (table keys entry).filter (fun row => row.1 = wanted) =
      if wanted ∈ keys then [(wanted, entry wanted)] else [] := by
  induction keys with
  | nil => rfl
  | cons key keys ih =>
      obtain ⟨fresh, later⟩ := List.nodup_cons.mp once
      have rest := ih later
      unfold table at rest ⊢
      by_cases same : key = wanted
      · subst same
        rw [List.map_cons, List.filter_cons_of_pos (by simp), rest, if_neg fresh,
          if_pos List.mem_cons_self]
      · rw [List.map_cons, List.filter_cons_of_neg (by simpa using same), rest]
        simp only [List.mem_cons, Ne.symm same, false_or]

theorem innerJoin_table {keys keys' : List κ} (once : keys'.Nodup) (left : κ → α) (right : κ → β) :
    innerJoin (table keys left) (table keys' right) =
      table (keys.filter fun key => key ∈ keys') fun key => (left key, right key) := by
  induction keys with
  | nil => rfl
  | cons key keys ih =>
      have here := filter_table once right key
      unfold innerJoin table at ih ⊢
      rw [List.map_cons, List.flatMap_cons, ih]
      unfold table at here
      rw [here]
      by_cases both : key ∈ keys'
      · rw [if_pos both, List.filter_cons_of_pos (by simpa using both)]
        rfl
      · rw [if_neg both, List.filter_cons_of_neg (by simpa using both)]
        rfl

theorem fullJoin_table {keys keys' : List κ} (once : keys.Nodup) (once' : keys'.Nodup)
    (left : κ → α) (right : κ → β) :
    fullJoin (table keys left) (table keys' right) =
      (keys ++ keys').dedup.map fun key =>
        (if key ∈ keys then some (key, left key) else none,
          if key ∈ keys' then some (key, right key) else none) := by
  have firsts : ∀ {γ : Type} (keys : List κ) (entry : κ → γ),
      (table keys entry).map Prod.fst = keys := by
    intro γ keys entry
    rw [table, List.map_map]
    exact List.map_id keys
  have single : ∀ {γ : Type} {keys : List κ}, keys.Nodup → ∀ (entry : κ → γ) (wanted : κ),
      orNull (group Prod.fst (table keys entry) wanted) =
        [if wanted ∈ keys then some (wanted, entry wanted) else none] := by
    intro γ keys once entry wanted
    rw [group, filter_table once]
    split
    · rfl
    · rfl
  rw [fullJoin, cogroup, firsts, firsts, table, List.flatMap_map, List.map_eq_flatMap]
  dsimp only
  apply List.flatMap_congr
  intro key _
  rw [single once, single once', List.flatMap_cons, List.flatMap_nil, List.append_nil]
  rfl

section Sums

variable {M : Type} [AddCommMonoid M]

def groupSum (key : α → κ) (weight : α → M) (rows : List α) (wanted : κ) : M :=
  ((group key rows wanted).map weight).sum

theorem groupSum_cons (key : α → κ) (weight : α → M) (row : α) (rows : List α) (wanted : κ) :
    groupSum key weight (row :: rows) wanted =
      (if key row = wanted then weight row else 0) + groupSum key weight rows wanted := by
  unfold groupSum group
  by_cases here : key row = wanted
  · rw [List.filter_cons_of_pos (by simpa using here), List.map_cons, List.sum_cons, if_pos here]
  · rw [List.filter_cons_of_neg (by simpa using here), if_neg here, zero_add]

theorem groupSum_eq_zero {key : α → κ} {weight : α → M} {rows : List α} {wanted : κ}
    (none : ∀ row ∈ rows, key row ≠ wanted) : groupSum key weight rows wanted = 0 := by
  unfold groupSum group
  rw [List.filter_eq_nil_iff.mpr (by simpa using none)]
  rfl

private theorem sum_one_place {places : List κ} (once : places.Nodup) {place : κ}
    (member : place ∈ places) (amount : M) :
    (places.map fun wanted => if place = wanted then amount else 0).sum = amount := by
  rw [← List.sum_toFinset _ once, Finset.sum_ite_eq, if_pos (List.mem_toFinset.mpr member)]

theorem sum_groupSum {places : List κ} (once : places.Nodup) {key : α → κ} (weight : α → M)
    {rows : List α} (placed : ∀ row ∈ rows, key row ∈ places) :
    (places.map (groupSum key weight rows)).sum = (rows.map weight).sum := by
  induction rows with
  | nil =>
      rw [List.map_nil, List.sum_nil]
      apply List.sum_eq_zero
      intro amount member
      obtain ⟨place, -, same⟩ := List.mem_map.mp member
      rw [← same]
      rfl
  | cons row rows ih =>
      obtain ⟨here, later⟩ := List.forall_mem_cons.mp placed
      rw [List.map_congr_left fun wanted _ => groupSum_cons key weight row rows wanted,
        List.sum_map_add, sum_one_place once here, ih later, List.map_cons, List.sum_cons]

theorem sum_length_group {places : List κ} (once : places.Nodup) {key : α → κ} {rows : List α}
    (placed : ∀ row ∈ rows, key row ∈ places) :
    (places.map fun wanted => (group key rows wanted).length).sum = rows.length := by
  have sums := sum_groupSum once (fun _ => (1 : Nat)) placed
  have each : ∀ wanted, groupSum key (fun _ => (1 : Nat)) rows wanted =
      (group key rows wanted).length := by
    intro wanted
    rw [groupSum, List.map_const', List.sum_replicate, Nat.nsmul_eq_mul, Nat.mul_one]
  rw [List.map_congr_left fun wanted _ => each wanted] at sums
  rw [sums, List.map_const', List.sum_replicate, Nat.nsmul_eq_mul, Nat.mul_one]

theorem sum_innerJoin (left : List (κ × α)) (right : List (κ × β)) (weight : β → M) :
    ((innerJoin left right).map fun row => weight row.2.2).sum =
      (right.map fun row => (left.countP fun other => other.1 = row.1) • weight row.2).sum := by
  induction left with
  | nil =>
      have zeros : (right.map fun row => (0 : Nat) • weight row.2).sum = 0 := by
        apply List.sum_eq_zero
        intro amount member
        obtain ⟨row, -, rfl⟩ := List.mem_map.mp member
        exact zero_nsmul _
      exact zeros.symm
  | cons entry left ih =>
      have here : (((right.filter fun other => other.1 = entry.1).map fun other =>
          (entry.1, entry.2, other.2)).map fun row => weight row.2.2).sum =
          (right.map fun row => (if entry.1 = row.1 then 1 else 0 : Nat) • weight row.2).sum := by
        clear ih
        induction right with
        | nil => rfl
        | cons row right ih =>
            by_cases same : row.1 = entry.1
            · rw [List.filter_cons_of_pos (by simpa using same), List.map_cons, List.map_cons,
                List.sum_cons, ih, List.map_cons, List.sum_cons, if_pos same.symm, one_nsmul]
            · rw [List.filter_cons_of_neg (by simpa using same), ih, List.map_cons, List.sum_cons,
                if_neg (Ne.symm same), zero_nsmul, zero_add]
      have split : ∀ row ∈ right,
          ((entry :: left).countP fun other => other.1 = row.1) • weight row.2 =
            (if entry.1 = row.1 then 1 else 0 : Nat) • weight row.2 +
              (left.countP fun other => other.1 = row.1) • weight row.2 := by
        intro row _
        rw [← add_nsmul, List.countP_cons, add_comm]
        simp only [decide_eq_true_eq]
      unfold innerJoin at ih ⊢
      rw [List.flatMap_cons, List.map_append, List.sum_append, ih, here,
        List.map_congr_left split, List.sum_map_add]

end Sums

theorem filter_innerJoin (keep : κ → Bool) (left : List (κ × α)) (right : List (κ × β)) :
    (innerJoin left right).filter (fun row => keep row.1) =
      innerJoin (left.filter fun row => keep row.1) right := by
  induction left with
  | nil => rfl
  | cons entry left ih =>
      unfold innerJoin at ih ⊢
      rw [List.flatMap_cons, List.filter_append, ih, List.filter_map]
      by_cases kept : keep entry.1 = true
      · have first : (entry :: left).filter (fun row => keep row.1) =
            entry :: left.filter fun row => keep row.1 := List.filter_cons_of_pos kept
        rw [first, List.flatMap_cons]
        congr 2
        exact List.filter_eq_self.mpr fun _ _ => kept
      · have dropped : (entry :: left).filter (fun row => keep row.1) =
            left.filter fun row => keep row.1 := List.filter_cons_of_neg kept
        rw [dropped]
        have none : (right.filter fun other => other.1 = entry.1).filter
            ((fun row : κ × α × β => keep row.1) ∘ fun other => (entry.1, entry.2, other.2)) = [] :=
          List.filter_eq_nil_iff.mpr fun _ _ => kept
        rw [none]
        rfl

theorem mem_innerJoin {left : List (κ × α)} {right : List (κ × β)} {row : κ × α × β} :
    row ∈ innerJoin left right ↔ (row.1, row.2.1) ∈ left ∧ (row.1, row.2.2) ∈ right := by
  simp only [innerJoin, List.mem_flatMap, List.mem_map, List.mem_filter, decide_eq_true_eq]
  constructor
  · rintro ⟨⟨key, value⟩, inLeft, ⟨key', value'⟩, ⟨inRight, same⟩, rfl⟩
    cases same
    exact ⟨inLeft, inRight⟩
  · rintro ⟨inLeft, inRight⟩
    exact ⟨(row.1, row.2.1), inLeft, (row.1, row.2.2), ⟨inRight, rfl⟩, rfl⟩

private theorem flatMap_group_perm_filter (key : α → κ) (rows : List α) {keys : List κ}
    (once : keys.Nodup) :
    (keys.flatMap (group key rows)).Perm (rows.filter fun row => key row ∈ keys) := by
  induction keys with
  | nil => simp
  | cons first keys ih =>
      obtain ⟨fresh, later⟩ := List.nodup_cons.mp once
      -- The first group is disjoint from the others, since its key is not among theirs.
      have split := List.filter_append_perm (fun row => key row = first)
        (rows.filter fun row => key row ∈ first :: keys)
      rw [List.filter_filter, List.filter_filter] at split
      have here : (fun row => decide (key row = first) && decide (key row ∈ first :: keys)) =
          fun row => decide (key row = first) := by
        funext row
        rw [← Bool.decide_and, decide_eq_decide]
        exact ⟨And.left, fun same => ⟨same, same ▸ List.mem_cons_self⟩⟩
      have others : (fun row => (!decide (key row = first)) && decide (key row ∈ first :: keys)) =
          fun row => decide (key row ∈ keys) := by
        funext row
        rw [← decide_not, ← Bool.decide_and, decide_eq_decide, List.mem_cons]
        constructor
        · rintro ⟨different, same | member⟩
          · exact absurd same different
          · exact member
        · intro member
          exact ⟨fun same => fresh (same ▸ member), .inr member⟩
      rw [here, others] at split
      rw [List.flatMap_cons]
      exact ((ih later).append_left _).trans split

theorem flatMap_group_perm {key : α → κ} {rows : List α} {keys : List κ} (once : keys.Nodup)
    {keep : α → Bool} (kept : ∀ row ∈ rows, keep row = true ↔ key row ∈ keys) :
    (keys.flatMap (group key rows)).Perm (rows.filter keep) := by
  have same : rows.filter keep = rows.filter fun row => key row ∈ keys := by
    apply List.filter_congr
    intro row member
    rw [Bool.eq_iff_iff, kept row member, decide_eq_true_eq]
  rw [same]
  exact flatMap_group_perm_filter key rows once

theorem group_perm {key : α → κ} {rows rows' : List α} (order : rows.Perm rows') (wanted : κ) :
    (group key rows wanted).Perm (group key rows' wanted) := order.filter _

theorem groupBy_perm {key : α → κ} {f : κ × List α → β} {rows rows' : List α}
    (order : rows.Perm rows')
    (same : ∀ wanted {part part' : List α}, part.Perm part' →
      f (wanted, part) = f (wanted, part')) :
    ((groupBy key rows).map f).Perm ((groupBy key rows').map f) := by
  unfold groupBy table
  rw [List.map_map, List.map_map]
  have values : (rows.map key).dedup.map (f ∘ fun wanted => (wanted, group key rows wanted)) =
      (rows.map key).dedup.map (f ∘ fun wanted => (wanted, group key rows' wanted)) :=
    List.map_congr_left fun wanted _ => same wanted (group_perm order wanted)
  rw [values]
  exact (order.map key).dedup.map _

theorem cogroup_perm {γ : Type} {key : α → κ} {key' : β → κ} {f : κ × List α × List β → List γ}
    {left left' : List α} {right right' : List β} (lefts : left.Perm left')
    (rights : right.Perm right')
    (same : ∀ wanted {part part' : List α} {others others' : List β}, part.Perm part' →
      others.Perm others' → (f (wanted, part, others)).Perm (f (wanted, part', others'))) :
    ((cogroup key key' left right).flatMap f).Perm
      ((cogroup key key' left' right').flatMap f) := by
  unfold cogroup table
  rw [List.flatMap_map, List.flatMap_map]
  refine (List.Perm.flatMap_left _ fun wanted _ =>
    same wanted (group_perm lefts wanted) (group_perm rights wanted)).trans ?_
  exact ((lefts.map key).append (rights.map key')).dedup.flatMap_right _

theorem orNull_perm {rows rows' : List α} (order : rows.Perm rows') :
    (orNull rows).Perm (orNull rows') := by
  unfold orNull
  rw [order.isEmpty_eq]
  split
  · exact List.Perm.refl _
  · exact order.map some

theorem fullJoin_perm {left left' : List (κ × α)} {right right' : List (κ × β)}
    (lefts : left.Perm left') (rights : right.Perm right') :
    (fullJoin left right).Perm (fullJoin left' right') := by
  refine cogroup_perm lefts rights fun wanted part part' others others' order order' => ?_
  refine ((orNull_perm order).flatMap_right _).trans (List.Perm.flatMap_left _ fun row _ => ?_)
  exact (orNull_perm order').map _

theorem innerJoin_perm {left left' : List (κ × α)} {right right' : List (κ × β)}
    (lefts : left.Perm left') (rights : right.Perm right') :
    (innerJoin left right).Perm (innerJoin left' right') := by
  unfold innerJoin
  refine (lefts.flatMap_right _).trans (List.Perm.flatMap_left _ fun entry _ => ?_)
  exact (rights.filter _).map _

end Packetpig.Groups
