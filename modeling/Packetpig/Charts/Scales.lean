/-
The numbers of the pages: `none` is what `parseFloat` gives for a text that is
no number, and every operation rounds its result to a double.
-/

import Packetpig.Library.Rounding

namespace Packetpig.Scales

def double (number : Rat) : Rat := Rounding.round 53 number

def larger (a : Rat) : Option Rat → Rat
  | some b => if a < b then b else a
  | none => a

/-- `d3.max`: what is no number is passed over. -/
def max : List (Option Rat) → Option Rat
  | [] => none
  | none :: array => max array
  | some a :: array => some (array.foldl larger a)

theorem foldl_larger (a : Rat) (numbers : List Rat) :
    (numbers.map some).foldl larger a ∈ a :: numbers ∧
      ∀ number ∈ a :: numbers, number ≤ (numbers.map some).foldl larger a := by
  induction numbers generalizing a with
  | nil => exact ⟨List.mem_singleton_self a, fun number member => (List.mem_singleton.mp member).le⟩
  | cons b numbers ih =>
      rw [List.map_cons, List.foldl_cons]
      obtain ⟨member, above⟩ := ih (larger a (some b))
      have atLeast : a ≤ larger a (some b) ∧ b ≤ larger a (some b) := by
        rw [larger]
        split
        · exact ⟨le_of_lt (by assumption), le_rfl⟩
        · exact ⟨le_rfl, le_of_not_gt (by assumption)⟩
      have isOne : larger a (some b) = a ∨ larger a (some b) = b := by
        rw [larger]
        split
        · exact Or.inr rfl
        · exact Or.inl rfl
      constructor
      · rcases List.mem_cons.mp member with top | later
        · rw [top]
          rcases isOne with same | same
          · rw [same]
            exact List.mem_cons_self
          · rw [same]
            exact List.mem_cons_of_mem a List.mem_cons_self
        · exact List.mem_cons_of_mem a (List.mem_cons_of_mem b later)
      · have reached := above _ List.mem_cons_self
        exact List.forall_mem_cons.mpr ⟨atLeast.1.trans reached, List.forall_mem_cons.mpr
          ⟨atLeast.2.trans reached, fun number later => above number (List.mem_cons_of_mem _ later)⟩⟩

theorem exists_max {numbers : List Rat} (nonempty : numbers ≠ []) :
    ∃ top ∈ numbers, max (numbers.map some) = some top ∧ ∀ number ∈ numbers, number ≤ top := by
  obtain ⟨a, rest, rfl⟩ := List.exists_cons_of_ne_nil nonempty
  obtain ⟨member, above⟩ := foldl_larger a rest
  exact ⟨_, member, rfl, above⟩

/-- `d3.scale.linear().domain([a, b])`, whose range is from 0 to 1. -/
def linear (a b x : Rat) : Rat :=
  let reciprocal := if double (b - a) = 0 then 0 else double (1 / double (b - a))
  double (double (x - a) * reciprocal)

end Packetpig.Scales
