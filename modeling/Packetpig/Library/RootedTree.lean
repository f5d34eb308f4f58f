/-
Parent relations: every vertex but the root has one parent, and parents are
closer to the root. Their graphs, without directions, are trees.
-/

import Mathlib.Combinatorics.SimpleGraph.Acyclic

namespace Packetpig

/-- `parent child above` says that `above` is the parent of `child`. -/
structure ParentRelation {V : Type*} (parent : V → V → Prop) (root : V) (depth : V → Nat) :
    Prop where
  rises : ∀ {child above}, parent child above → depth above < depth child
  unique : ∀ {child above other}, parent child above → parent child other → above = other
  total : ∀ {child}, child ≠ root → ∃ above, parent child above

namespace ParentRelation

variable {V : Type*} {parent : V → V → Prop} {root : V} {depth : V → Nat}

theorem reaches_root (tree : ParentRelation parent root depth) (vertex : V) :
    Relation.ReflTransGen parent vertex root := by
  induction bound : depth vertex using Nat.strong_induction_on generalizing vertex with
  | _ height ih =>
      by_cases same : vertex = root
      · subst same
        exact .refl
      · obtain ⟨above, isParent⟩ := tree.total same
        have lower := tree.rises isParent
        rw [bound] at lower
        exact .head isParent (ih (depth above) lower above rfl)

theorem ne_of_parent (tree : ParentRelation parent root depth) {child above : V}
    (isParent : parent child above) : child ≠ above := by
  intro same
  have lower := tree.rises isParent
  rw [same] at lower
  exact Nat.lt_irrefl _ lower

theorem parent_of_adj (tree : ParentRelation parent root depth) {child above : V}
    (adjacent : (SimpleGraph.fromRel parent).Adj child above)
    (higher : depth above ≤ depth child) : parent child above := by
  rw [SimpleGraph.fromRel_adj] at adjacent
  rcases adjacent.2 with isParent | isChild
  · exact isParent
  · have lower := tree.rises isChild
    omega

private theorem reachable_root (tree : ParentRelation parent root depth) (vertex : V) :
    (SimpleGraph.fromRel parent).Reachable vertex root := by
  induction tree.reaches_root vertex using Relation.ReflTransGen.head_induction_on with
  | refl => exact .refl _
  | head isParent _ ih =>
      have adjacent : (SimpleGraph.fromRel parent).Adj _ _ :=
        (SimpleGraph.fromRel_adj _ _ _).mpr ⟨tree.ne_of_parent isParent, Or.inl isParent⟩
      exact adjacent.reachable.trans ih

private theorem isAcyclic (tree : ParentRelation parent root depth) :
    (SimpleGraph.fromRel parent).IsAcyclic := by
  classical
  intro start cycle isCycle
  obtain ⟨deepest, onCycle, isDeepest⟩ :=
    cycle.support.toFinset.exists_max_image depth ⟨start, by simp⟩
  rw [List.mem_toFinset] at onCycle
  have rotated := isCycle.rotate onCycle
  have inside : ∀ vertex ∈ (cycle.rotate deepest onCycle).support,
      depth vertex ≤ depth deepest := by
    intro vertex member
    exact isDeepest vertex (by simpa using member)
  have notNil := rotated.not_nil
  have next := tree.parent_of_adj ((cycle.rotate deepest onCycle).adj_snd notNil)
    (inside _ (SimpleGraph.Walk.getVert_mem_support _ _))
  have previous := tree.parent_of_adj ((cycle.rotate deepest onCycle).adj_penultimate notNil).symm
    (inside _ (SimpleGraph.Walk.getVert_mem_support _ _))
  exact rotated.snd_ne_penultimate (tree.unique next previous)

theorem isTree (tree : ParentRelation parent root depth) :
    (SimpleGraph.fromRel parent).IsTree where
  connected :=
    { preconnected := fun left right =>
        (tree.reachable_root left).trans (tree.reachable_root right).symm
      nonempty := ⟨root⟩ }
  isAcyclic := tree.isAcyclic

end ParentRelation

end Packetpig
