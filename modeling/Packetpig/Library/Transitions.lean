/-
Runs of a step relation, and invariants that carry a rank: a number that every
step lowers. A ranked run is bounded, and some run ends where no step is left.
-/

import Mathlib.Logic.Basic
import Mathlib.Order.Basic

namespace Packetpig.Transitions

variable {σ : Type} {step : σ → σ → Prop}

inductive Run (step : σ → σ → Prop) (first : σ) : Nat → σ → Prop
  | start : Run step first 0 first
  | next {count : Nat} {state after : σ} (run : Run step first count state)
      (moved : step state after) : Run step first (count + 1) after

def Stuck (step : σ → σ → Prop) (state : σ) : Prop := ∀ after, ¬ step state after

theorem Run.from_step {first second last : σ} {count : Nat} (moved : step first second)
    (run : Run step second count last) : Run step first (count + 1) last := by
  induction run with
  | start => exact .next .start moved
  | next _ moved' ih => exact .next ih moved'

theorem Run.preserves {first last : σ} {count : Nat} (Holds : σ → Prop)
    (preserved : ∀ state after, Holds state → step state after → Holds after)
    (run : Run step first count last) (initially : Holds first) : Holds last := by
  induction run with
  | start => exact initially
  | next _ moved ih => exact preserved _ _ ih moved

section Ranked

variable {Ranked : σ → Nat → Prop}
  (descends : ∀ state after rank, Ranked state rank → step state after →
    ∃ lower, lower < rank ∧ Ranked after lower)

include descends

theorem Run.ranked {first last : σ} {count rank : Nat} (run : Run step first count last)
    (initially : Ranked first rank) : ∃ left, left + count ≤ rank ∧ Ranked last left := by
  induction run with
  | start => exact ⟨rank, Nat.le_refl rank, initially⟩
  | next _ moved ih =>
      obtain ⟨left, within, ranked⟩ := ih
      obtain ⟨lower, less, ranked'⟩ := descends _ _ left ranked moved
      exact ⟨lower, by omega, ranked'⟩

theorem exists_run_stuck {first : σ} {rank : Nat} (initially : Ranked first rank) :
    ∃ count last, Run step first count last ∧ Stuck step last := by
  induction rank using Nat.strongRecOn generalizing first with
  | ind rank ih =>
      by_cases stuck : Stuck step first
      · exact ⟨0, first, .start, stuck⟩
      · obtain ⟨second, moved⟩ := not_forall_not.mp stuck
        obtain ⟨lower, less, ranked⟩ := descends first second rank initially moved
        obtain ⟨count, last, run, stuck'⟩ := ih lower less ranked
        exact ⟨count + 1, last, run.from_step moved, stuck'⟩

end Ranked

end Packetpig.Transitions
