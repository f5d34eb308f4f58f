/-
Binary trees whose leaves are values: the leaf that a bit string leads to, the
prefixes that a tree assigns values to, and trees kept as a table of pairs of
numbers.
-/

import Mathlib.Data.List.Basic

namespace Packetpig

inductive PrefixTree (β : Type) where
  | leaf (value : β)
  | node (zero one : PrefixTree β)
deriving DecidableEq, Repr

namespace PrefixTree

variable {β γ : Type}

/-- The leaf that a bit string leads to, with the number of bits this takes. -/
def follow : PrefixTree β → List Bool → Option (β × Nat)
  | leaf value, _ => some (value, 0)
  | node _ _, [] => none
  | node zero one, bit :: bits =>
      (if bit then one.follow bits else zero.follow bits).map fun found => (found.1, found.2 + 1)

def entries : PrefixTree β → List (List Bool × β)
  | leaf value => [([], value)]
  | node zero one =>
      zero.entries.map (fun entry => (false :: entry.1, entry.2)) ++
        one.entries.map fun entry => (true :: entry.1, entry.2)

def height : PrefixTree β → Nat
  | leaf _ => 0
  | node zero one => max zero.height one.height + 1

def map (f : β → γ) : PrefixTree β → PrefixTree γ
  | leaf value => leaf (f value)
  | node zero one => node (zero.map f) (one.map f)

theorem entries_node (zero one : PrefixTree β) :
    (node zero one).entries =
      zero.entries.map (fun entry => (false :: entry.1, entry.2)) ++
        one.entries.map fun entry => (true :: entry.1, entry.2) := rfl

theorem mem_entries_node {zero one : PrefixTree β} {bits : List Bool} {value : β} :
    (bits, value) ∈ (node zero one).entries ↔ ∃ bit rest, bits = bit :: rest ∧
      (rest, value) ∈ (if bit then one else zero).entries := by
  rw [entries_node, List.mem_append, List.mem_map, List.mem_map]
  constructor
  · intro either
    rcases either with ⟨⟨rest, found⟩, member, same⟩ | ⟨⟨rest, found⟩, member, same⟩
    · cases same
      exact ⟨false, rest, rfl, member⟩
    · cases same
      exact ⟨true, rest, rfl, member⟩
  · intro found
    rcases found with ⟨bit, rest, same, member⟩
    subst same
    cases bit with
    | false => exact .inl ⟨(rest, value), member, rfl⟩
    | true => exact .inr ⟨(rest, value), member, rfl⟩

theorem follow_node (zero one : PrefixTree β) (bit : Bool) (bits : List Bool) :
    (node zero one).follow (bit :: bits) =
      ((if bit then one else zero).follow bits).map fun found => (found.1, found.2 + 1) := by
  cases bit with
  | false => rfl
  | true => rfl

theorem follow_eq_some_iff {tree : PrefixTree β} {bits : List Bool} {value : β} {length : Nat} :
    tree.follow bits = some (value, length) ↔
      length ≤ bits.length ∧ (bits.take length, value) ∈ tree.entries := by
  induction tree generalizing bits length with
  | leaf stored =>
      rw [follow, entries, Option.some.injEq, Prod.mk.injEq, List.mem_singleton, Prod.mk.injEq,
        List.take_eq_nil_iff]
      constructor
      · intro same
        rcases same with ⟨same, zero⟩
        exact ⟨zero ▸ Nat.zero_le _, .inl zero.symm, same.symm⟩
      · intro found
        rcases found with ⟨inside, empty, same⟩
        rcases empty with zero | none
        · exact ⟨same.symm, zero.symm⟩
        · rw [none] at inside
          exact ⟨same.symm, (Nat.le_zero.mp inside).symm⟩
  | node zero one zeroIh oneIh =>
      cases bits with
      | nil =>
          unfold follow
          rw [List.take_nil, mem_entries_node]
          constructor
          · intro impossible
            cases impossible
          · intro found
            rcases found with ⟨-, bit, rest, impossible, -⟩
            cases impossible
      | cons bit bits =>
          have branch : ∀ {found : Nat},
              (if bit then one else zero).follow bits = some (value, found) ↔
                found ≤ bits.length ∧
                  (bits.take found, value) ∈ (if bit then one else zero).entries := by
            intro found
            cases bit with
            | false => exact zeroIh
            | true => exact oneIh
          rw [follow_node, Option.map_eq_some_iff, mem_entries_node]
          constructor
          · intro found
            rcases found with ⟨⟨stored, depth⟩, reached, same⟩
            cases same
            obtain ⟨inside, member⟩ := branch.mp reached
            exact ⟨Nat.succ_le_succ inside, bit, bits.take depth, rfl, member⟩
          · intro found
            rcases found with ⟨inside, first, rest, same, member⟩
            cases length with
            | zero => cases same
            | succ depth =>
                rw [List.take_succ_cons] at same
                cases same
                exact ⟨(value, depth), branch.mpr ⟨Nat.le_of_succ_le_succ inside, member⟩, rfl⟩

theorem follow_isSome {tree : PrefixTree β} {bits : List Bool} (long : tree.height ≤ bits.length) :
    (tree.follow bits).isSome := by
  induction tree generalizing bits with
  | leaf value => rfl
  | node zero one zeroIh oneIh =>
      unfold height at long
      cases bits with
      | nil => exact absurd long (Nat.not_succ_le_zero _)
      | cons bit bits =>
          rw [List.length_cons] at long
          rw [follow_node, Option.isSome_map]
          cases bit with
          | false => exact zeroIh (by omega)
          | true => exact oneIh (by omega)

theorem follow_map (f : β → γ) (tree : PrefixTree β) (bits : List Bool) :
    (tree.map f).follow bits = (tree.follow bits).map fun found => (f found.1, found.2) := by
  induction tree generalizing bits with
  | leaf value => rfl
  | node zero one zeroIh oneIh =>
      cases bits with
      | nil => rfl
      | cons bit bits =>
          rw [map, follow_node, follow_node, Option.map_map]
          cases bit with
          | false =>
              rw [if_neg Bool.false_ne_true, if_neg Bool.false_ne_true, zeroIh, Option.map_map]
              rfl
          | true =>
              rw [if_pos rfl, if_pos rfl, oneIh, Option.map_map]
              rfl

theorem entries_map (f : β → γ) (tree : PrefixTree β) :
    (tree.map f).entries = tree.entries.map fun entry => (entry.1, f entry.2) := by
  induction tree with
  | leaf value => rfl
  | node zero one zeroIh oneIh =>
      rw [map, entries_node, entries_node, zeroIh, oneIh, List.map_append, List.map_map,
        List.map_map, List.map_map, List.map_map]
      rfl

/-- A tree kept in a table of pairs: a number below `nodes` is a place in the
table, any other one is a value. -/
inductive Stored (pair : Nat → Nat → Nat → Prop) (nodes : Nat) : PrefixTree Nat → Nat → Prop
  | leaf {value : Nat} (large : nodes ≤ value) : Stored pair nodes (.leaf value) value
  | node {zero one : PrefixTree Nat} {place left right : Nat} (small : place < nodes)
      (found : pair place left right) (onZero : Stored pair nodes zero left)
      (onOne : Stored pair nodes one right) : Stored pair nodes (.node zero one) place

theorem Stored.mono {pair pair' : Nat → Nat → Nat → Prop} {nodes number : Nat}
    {tree : PrefixTree Nat}
    (keeps : ∀ {place left right}, pair place left right → pair' place left right)
    (stored : Stored pair nodes tree number) : Stored pair' nodes tree number := by
  induction stored with
  | leaf large => exact .leaf large
  | node small found _ _ zeroIh oneIh => exact .node small (keeps found) zeroIh oneIh

def size : PrefixTree β → Nat
  | leaf _ => 0
  | node zero one => zero.size + one.size + 1

theorem size_map (f : β → γ) (tree : PrefixTree β) : (tree.map f).size = tree.size := by
  induction tree with
  | leaf value => rfl
  | node zero one zeroIh oneIh => rw [map, size, size, zeroIh, oneIh]

def reference (place : Nat) : PrefixTree Nat → Nat
  | leaf value => value
  | node _ _ => place

def layout : Nat → PrefixTree Nat → List (Nat × Nat)
  | _, leaf _ => []
  | place, node zero one =>
      (zero.reference (place + 1), one.reference (place + 1 + zero.size)) ::
        (layout (place + 1) zero ++ layout (place + 1 + zero.size) one)

@[simp] theorem layout_length (place : Nat) (tree : PrefixTree Nat) :
    (layout place tree).length = tree.size := by
  induction tree generalizing place with
  | leaf value => rfl
  | node zero one zeroIh oneIh =>
      rw [layout, List.length_cons, List.length_append, zeroIh, oneIh]
      rfl

theorem layout_le {bound : Nat} {tree : PrefixTree Nat}
    (leaves : ∀ entry ∈ tree.entries, entry.2 ≤ bound) {place : Nat}
    (places : place + tree.size ≤ bound) :
    ∀ pair ∈ layout place tree, pair.1 ≤ bound ∧ pair.2 ≤ bound := by
  induction tree generalizing place with
  | leaf value => exact List.forall_mem_nil _
  | node zero one zeroIh oneIh =>
      have zeroLeaves : ∀ entry ∈ zero.entries, entry.2 ≤ bound := by
        intro entry member
        exact leaves (false :: entry.1, entry.2) (mem_entries_node.mpr ⟨false, _, rfl, member⟩)
      have oneLeaves : ∀ entry ∈ one.entries, entry.2 ≤ bound := by
        intro entry member
        exact leaves (true :: entry.1, entry.2) (mem_entries_node.mpr ⟨true, _, rfl, member⟩)
      unfold size at places
      have reference_le : ∀ {subtree : PrefixTree Nat} {place : Nat},
          (∀ entry ∈ subtree.entries, entry.2 ≤ bound) → place ≤ bound →
            subtree.reference place ≤ bound := by
        intro subtree place small inside
        cases subtree with
        | leaf value => exact small ([], value) (List.mem_singleton_self _)
        | node _ _ => exact inside
      rw [layout, List.forall_mem_cons, List.forall_mem_append]
      refine ⟨⟨reference_le zeroLeaves (by omega), reference_le oneLeaves (by omega)⟩, ?_, ?_⟩
      · exact zeroIh zeroLeaves (by omega)
      · exact oneIh oneLeaves (by omega)

theorem stored_layout {nodes : Nat} {tree : PrefixTree Nat}
    (large : ∀ entry ∈ tree.entries, nodes ≤ entry.2) {place : Nat} (front back : List (Nat × Nat))
    (before : front.length = place) (fits : place + tree.size ≤ nodes) :
    Stored (fun place left right =>
      (front ++ layout front.length tree ++ back)[place]? = some (left, right)) nodes tree
      (tree.reference place) := by
  subst before
  induction tree generalizing front back with
  | leaf value => exact .leaf (large ([], value) (List.mem_singleton_self _))
  | node zero one zeroIh oneIh =>
      have zeroLarge : ∀ entry ∈ zero.entries, nodes ≤ entry.2 := by
        intro entry member
        exact large (false :: entry.1, entry.2) (mem_entries_node.mpr ⟨false, _, rfl, member⟩)
      have oneLarge : ∀ entry ∈ one.entries, nodes ≤ entry.2 := by
        intro entry member
        exact large (true :: entry.1, entry.2) (mem_entries_node.mpr ⟨true, _, rfl, member⟩)
      unfold size at fits
      let pair := (zero.reference (front.length + 1), one.reference (front.length + 1 + zero.size))
      -- The same table, split around each of the two parts.
      have aroundZero : front ++ layout front.length (node zero one) ++ back =
          (front ++ [pair]) ++ layout (front ++ [pair]).length zero ++
            (layout (front.length + 1 + zero.size) one ++ back) := by
        rw [List.length_append, List.length_singleton, layout]
        simp only [List.append_assoc, List.cons_append, List.nil_append, pair]
      have frontLength : (front ++ pair :: layout (front.length + 1) zero).length =
          front.length + 1 + zero.size := by
        rw [List.length_append, List.length_cons, layout_length]
        omega
      have aroundOne : front ++ layout front.length (node zero one) ++ back =
          (front ++ pair :: layout (front.length + 1) zero) ++
            layout (front ++ pair :: layout (front.length + 1) zero).length one ++ back := by
        rw [frontLength, layout]
        simp only [List.append_assoc, List.cons_append, pair]
      have onZero := zeroIh zeroLarge (front ++ [pair])
        (layout (front.length + 1 + zero.size) one ++ back)
        (by rw [List.length_append, List.length_singleton]; omega)
      have onOne := oneIh oneLarge (front ++ pair :: layout (front.length + 1) zero) back
        (by rw [frontLength]; omega)
      rw [← aroundZero, List.length_append, List.length_singleton] at onZero
      rw [← aroundOne, frontLength] at onOne
      apply Stored.node (by change front.length < nodes; omega) _ onZero onOne
      rw [List.append_assoc, reference, List.getElem?_append_right (Nat.le_refl _), Nat.sub_self, layout]
      rfl

end PrefixTree

end Packetpig
