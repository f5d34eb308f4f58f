/-
Maximal runs of neighbours with the same key, collected one item at a time: a
run is complete when an item with another key comes, so the last one stays open.
-/

import Mathlib.Data.List.SplitBy

namespace Packetpig.Runs

variable {α κ : Type} [DecidableEq κ] (key : α → κ)

def same (left right : α) : Bool := key left = key right

def split (items : List α) : List (List α) := items.splitBy (same key)

structure Collected (α : Type) where
  complete : List (List α)
  pending : List α

def push (collected : Collected α) (item : α) : Collected α :=
  match collected.pending.head? with
  | none => { collected with pending := [item] }
  | some first =>
      if key first = key item then { collected with pending := collected.pending ++ [item] }
      else { complete := collected.complete ++ [collected.pending], pending := [item] }

theorem push_nil (complete : List (List α)) (item : α) :
    push key ⟨complete, []⟩ item = ⟨complete, [item]⟩ := rfl

theorem push_same {first item : α} (equal : key first = key item) (complete : List (List α))
    (rest : List α) :
    push key ⟨complete, first :: rest⟩ item = ⟨complete, first :: rest ++ [item]⟩ :=
  if_pos equal

theorem push_other {first item : α} (different : key first ≠ key item)
    (complete : List (List α)) (rest : List α) :
    push key ⟨complete, first :: rest⟩ item = ⟨complete ++ [first :: rest], [item]⟩ :=
  if_neg different

variable {key}

private theorem split_single {run : List α} (nonempty : run ≠ []) {value : κ}
    (alike : ∀ item ∈ run, key item = value) : split key run = [run] := by
  refine List.splitBy_of_isChain nonempty (List.Pairwise.isChain ?_)
  apply List.pairwise_of_forall_mem_list
  intro left inLeft right inRight
  exact decide_eq_true ((alike left inLeft).trans (alike right inRight).symm)

private theorem split_ne_nil (item : α) (items : List α) : split key (item :: items) ≠ [] :=
  List.splitBy_ne_nil.mpr (List.cons_ne_nil item items)

private theorem split_append {run : List α} (nonempty : run ≠ []) {value : κ}
    (alike : ∀ item ∈ run, key item = value) {next : α} (different : value ≠ key next)
    (items : List α) : split key (run ++ next :: items) = run :: split key (next :: items) := by
  have apart : ∀ item ∈ run.getLast?, same key item next = false := by
    intro item last
    rw [same, alike item (List.mem_of_mem_getLast? last)]
    exact decide_eq_false different
  rw [split, List.splitBy_append_cons items apart]
  exact congrArg (· ++ _) (split_single nonempty alike)

private theorem foldl_push_of_pending (items : List α) {complete : List (List α)} {run : List α}
    (nonempty : run ≠ []) {value : κ} (alike : ∀ item ∈ run, key item = value) :
    items.foldl (push key) ⟨complete, run⟩ =
      ⟨complete ++ (split key (run ++ items)).dropLast,
        (split key (run ++ items)).getLast?.getD []⟩ := by
  induction items generalizing complete run value with
  | nil =>
      rw [List.append_nil, split_single nonempty alike, List.dropLast_singleton, List.append_nil]
      rfl
  | cons item items ih =>
      obtain ⟨first, rest, rfl⟩ := List.exists_cons_of_ne_nil nonempty
      have firstKey := alike first List.mem_cons_self
      rw [List.foldl_cons]
      by_cases equal : key first = key item
      · have alike' : ∀ other ∈ first :: rest ++ [item], key other = value := by
          rw [List.forall_mem_append, List.forall_mem_singleton]
          exact ⟨alike, equal.symm.trans firstKey⟩
        rw [push_same key equal, ih (by simp) alike', List.append_assoc, List.singleton_append]
      · have different : value ≠ key item := firstKey ▸ equal
        rw [push_other key equal, ih (List.cons_ne_nil item []) (List.forall_mem_singleton.mpr rfl),
          split_append nonempty alike different, List.singleton_append,
          List.dropLast_cons_of_ne_nil (split_ne_nil item items), List.append_assoc,
          List.getLast?_cons_of_ne_nil (split_ne_nil item items)]
        rfl

theorem foldl_push (items : List α) :
    items.foldl (push key) ⟨[], []⟩ =
      ⟨(split key items).dropLast, (split key items).getLast?.getD []⟩ := by
  cases items with
  | nil => rfl
  | cons item items =>
      exact foldl_push_of_pending items (List.cons_ne_nil item [])
        (List.forall_mem_singleton.mpr (Eq.refl (key item)))

end Packetpig.Runs
