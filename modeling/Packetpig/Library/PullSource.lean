/-
Sources that are pulled one item at a time until they stop, and the sequence
of items such a source yields.

A source may stop for several reasons (an end mark, an exception), and its
state after the stop is kept: a caller may pull again.
-/

import Mathlib.Logic.Basic

namespace Packetpig

/-- The answer to one pull: an item and the next state, or a reason to stop. -/
inductive Pull (σ α ε : Type) where
  | item (value : α) (next : σ)
  | stop (reason : ε) (next : σ)

def Pull.elim {σ α ε β : Type} (onItem : α → σ → β) (onStop : ε → σ → β) : Pull σ α ε → β
  | .item value next => onItem value next
  | .stop reason next => onStop reason next

/-- Pulling from `state` returns the items in order, then stops. -/
inductive Yields {σ α ε : Type} (next : σ → Pull σ α ε) : σ → List α → ε → σ → Prop
  | stop {state final : σ} {reason : ε} (pulled : next state = .stop reason final) :
      Yields next state [] reason final
  | item {state after final : σ} {value : α} {items : List α} {reason : ε}
      (pulled : next state = .item value after) (rest : Yields next after items reason final) :
      Yields next state (value :: items) reason final

namespace Yields

variable {σ α β ε : Type} {next : σ → Pull σ α ε}

theorem unique {state final final' : σ} {items items' : List α} {reason reason' : ε}
    (left : Yields next state items reason final)
    (right : Yields next state items' reason' final') :
    items = items' ∧ reason = reason' ∧ final = final' := by
  induction left generalizing items' with
  | stop pulled =>
      cases right with
      | stop pulled' =>
          rw [pulled] at pulled'
          cases pulled'
          exact ⟨rfl, rfl, rfl⟩
      | item pulled' _ =>
          rw [pulled] at pulled'
          cases pulled'
  | item pulled rest ih =>
      cases right with
      | stop pulled' =>
          rw [pulled] at pulled'
          cases pulled'
      | item pulled' rest' =>
          rw [pulled] at pulled'
          cases pulled'
          obtain ⟨rfl, rfl, rfl⟩ := ih rest'
          exact ⟨rfl, rfl, rfl⟩

theorem congr_state {state state' final : σ} {items : List α} {reason : ε}
    (same : next state' = next state) (run : Yields next state items reason final) :
    Yields next state' items reason final := by
  cases run with
  | stop pulled => exact .stop (same.trans pulled)
  | item pulled rest => exact .item (same.trans pulled) rest

theorem of_queue (view : β → α) (build : List β → σ) {items : List α} {reason : ε}
    {final : σ} (rest : Yields next (build []) items reason final)
    (pop : ∀ head tail, next (build (head :: tail)) = .item (view head) (build tail))
    (queue : List β) :
    Yields next (build queue) (queue.map view ++ items) reason final := by
  induction queue with
  | nil => exact rest
  | cons head tail ih => exact .item (pop head tail) ih

end Yields

def Pull.state {σ α ε : Type} : Pull σ α ε → σ
  | .item _ next => next
  | .stop _ next => next

def stateAfter {σ α ε : Type} (next : σ → Pull σ α ε) (state : σ) : Nat → σ
  | 0 => state
  | calls + 1 => (next (stateAfter next state calls)).state

def Pull.items {σ α ε : Type} : Pull σ α ε → List α
  | .item value _ => [value]
  | .stop _ _ => []

def itemsAfter {σ α ε : Type} (next : σ → Pull σ α ε) (state : σ) : Nat → List α
  | 0 => []
  | calls + 1 => itemsAfter next state calls ++ (next (stateAfter next state calls)).items

theorem stateAfter_invariant {σ α ε : Type} {next : σ → Pull σ α ε} (Inv : Nat → σ → Prop)
    (preserved : ∀ calls state, Inv calls state → Inv (calls + 1) (next state).state)
    {state : σ} (start : Inv 0 state) (calls : Nat) : Inv calls (stateAfter next state calls) := by
  induction calls with
  | zero => exact start
  | succ calls ih => exact preserved calls _ ih

/-- Pulling from `state` returns the items in order and leads to `after`. -/
inductive Advances {σ α ε : Type} (next : σ → Pull σ α ε) : σ → List α → σ → Prop
  | refl {state : σ} : Advances next state [] state
  | item {state middle after : σ} {value : α} {items : List α}
      (pulled : next state = .item value middle) (rest : Advances next middle items after) :
      Advances next state (value :: items) after

namespace Advances

variable {σ α ε : Type} {next : σ → Pull σ α ε}

theorem yields {state after final : σ} {items later : List α} {reason : ε}
    (moved : Advances next state items after) (run : Yields next after later reason final) :
    Yields next state (items ++ later) reason final := by
  induction moved with
  | refl => exact run
  | item pulled _ ih => exact .item pulled (ih run)

theorem of_yields {state final : σ} {items later : List α} {reason : ε}
    (run : Yields next state (items ++ later) reason final) :
    ∃ after, Advances next state items after ∧ Yields next after later reason final := by
  induction items generalizing state with
  | nil => exact ⟨state, .refl, run⟩
  | cons value items ih =>
      cases run with
      | item pulled rest =>
          obtain ⟨after, moved, run⟩ := ih rest
          exact ⟨after, .item pulled moved, run⟩

theorem of_append {state after : σ} {items later : List α}
    (moved : Advances next state (items ++ later) after) :
    ∃ middle, Advances next state items middle ∧ Advances next middle later after := by
  induction items generalizing state with
  | nil => exact ⟨state, .refl, moved⟩
  | cons value items ih =>
      cases moved with
      | item pulled rest =>
          obtain ⟨middle, moved, run⟩ := ih rest
          exact ⟨middle, .item pulled moved, run⟩

theorem after_pulls {start state after : σ} {items : List α}
    (moved : Advances next state items after) {pulls : Nat}
    (atState : stateAfter next start pulls = state) :
    stateAfter next start (pulls + items.length) = after ∧
      itemsAfter next start (pulls + items.length) = itemsAfter next start pulls ++ items := by
  induction moved generalizing pulls with
  | refl => exact ⟨atState, (List.append_nil _).symm⟩
  | @item state middle after value items pulled _ ih =>
      have one : stateAfter next start (pulls + 1) = middle := by
        rw [stateAfter, atState, pulled, Pull.state]
      have last : itemsAfter next start (pulls + 1) = itemsAfter next start pulls ++ [value] := by
        rw [itemsAfter, atState, pulled, Pull.items]
      obtain ⟨there, all⟩ := ih one
      rw [List.length_cons, Nat.add_comm items.length, ← Nat.add_assoc]
      refine ⟨there, ?_⟩
      rw [all, last, List.append_assoc, List.singleton_append]

end Advances

/-- A source with a measure that every returned item lowers, so that pulling
until it stops terminates. -/
structure PullSource (σ α ε : Type) where
  next : σ → Pull σ α ε
  size : σ → Nat
  shrinks : ∀ state value after, next state = .item value after → size after < size state

namespace PullSource

variable {σ α ε : Type}

theorem exists_yields (source : PullSource σ α ε) (state : σ) :
    ∃ items reason final, Yields source.next state items reason final := by
  induction bound : source.size state using Nat.strongRecOn generalizing state with
  | ind size ih =>
      cases pulled : source.next state with
      | stop reason final => exact ⟨[], reason, final, .stop pulled⟩
      | item value after =>
          have smaller := source.shrinks state value after pulled
          obtain ⟨items, reason, final, rest⟩ := ih _ (bound ▸ smaller) after rfl
          exact ⟨value :: items, reason, final, .item pulled rest⟩

theorem length_le_size (source : PullSource σ α ε) {state final : σ} {items : List α}
    {reason : ε} (run : Yields source.next state items reason final) :
    items.length ≤ source.size state := by
  induction run with
  | stop _ => exact Nat.zero_le _
  | item pulled _ ih =>
      have smaller := source.shrinks _ _ _ pulled
      rw [List.length_cons]
      omega

end PullSource

end Packetpig
