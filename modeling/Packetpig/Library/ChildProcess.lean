/-
A program that runs as a child process: it reads the bytes of its standard
input one at a time, and what it does next depends on these bytes only.
-/

import Mathlib.Logic.Function.Iterate
import Mathlib.Data.List.Basic

namespace Packetpig.ChildProcess

/-- `read` goes on with the next byte, or with `none` at the end of the input;
`save` appends to a file; `work` is anything that no one else sees. -/
inductive Action (σ : Type) where
  | read (next : Option UInt8 → σ)
  | stdout (byte : UInt8) (next : σ)
  | stderr (byte : UInt8) (next : σ)
  | save (byte : UInt8) (next : σ)
  | work (next : σ)
  | exit

/-- The program alone, with all its input there and no limit on what it writes.
There is no `process` after `exit`. -/
structure Alone (σ : Type) where
  process : Option σ
  input : List UInt8
  stdout : List UInt8
  file : List UInt8

def Alone.initial {σ : Type} (start : σ) (input : List UInt8) : Alone σ :=
  { process := some start, input := input, stdout := [], file := [] }

variable {σ : Type} (program : σ → Action σ)

def Alone.perform (alone : Alone σ) : Action σ → Alone σ
  | .read next =>
      { alone with process := some (next alone.input.head?), input := alone.input.tail }
  | .stdout byte next =>
      { alone with process := some next, stdout := alone.stdout ++ [byte] }
  | .stderr _ next => { alone with process := some next }
  | .save byte next => { alone with process := some next, file := alone.file ++ [byte] }
  | .work next => { alone with process := some next }
  | .exit => { alone with process := none }

def Alone.act (alone : Alone σ) : Alone σ :=
  match alone.process with
  | none => alone
  | some state => alone.perform (program state)

def after (start : σ) (input : List UInt8) (actions : Nat) : Alone σ :=
  (Alone.act program)^[actions] (Alone.initial start input)

def Exits (start : σ) (input : List UInt8) (actions : Nat) : Prop :=
  (after program start input actions).process = none

variable {program} {start : σ} {input : List UInt8} {actions : Nat}

theorem Alone.act_of_process {alone : Alone σ} {state : σ} (running : alone.process = some state) :
    alone.act program = alone.perform (program state) := by
  rw [act, running]

theorem Alone.act_of_exited {alone : Alone σ} (exited : alone.process = none) :
    alone.act program = alone := by
  rw [act, exited]

theorem after_succ : after program start input (actions + 1) =
    (after program start input actions).act program :=
  Function.iterate_succ_apply' _ _ _

theorem Exits.after_eq (exits : Exits program start input actions) (more : Nat) :
    after program start input (actions + more) = after program start input actions := by
  induction more with
  | zero => rfl
  | succ more ih => rw [← Nat.add_assoc, after_succ, ih, Alone.act_of_exited exits]

theorem Exits.lt_of_running (exits : Exits program start input actions) {fewer : Nat}
    (running : (after program start input fewer).process ≠ none) : fewer < actions := by
  by_contra enough
  obtain ⟨more, rfl⟩ := Nat.exists_eq_add_of_le (Nat.le_of_not_lt enough)
  exact running ((congrArg Alone.process (exits.after_eq more)).trans exits)

theorem Exits.eq_of_exited (exits : Exits program start input actions) {other : Nat}
    (exited : (after program start input other).process = none) :
    after program start input other = after program start input actions := by
  have exits' : Exits program start input other := exited
  rcases Nat.le_total other actions with fewer | more
  · obtain ⟨rest, rfl⟩ := Nat.exists_eq_add_of_le fewer
    exact (exits'.after_eq rest).symm
  · obtain ⟨rest, rfl⟩ := Nat.exists_eq_add_of_le more
    exact exits.after_eq rest

theorem Alone.stdout_prefix_act (alone : Alone σ) :
    alone.stdout <+: (alone.act program).stdout := by
  cases running : alone.process with
  | none => simp only [act_of_exited running, List.prefix_rfl]
  | some state =>
      rw [act_of_process running]
      cases program state with
      | stdout byte next => exact List.prefix_append _ _
      | read | stderr | save | work | exit => exact List.prefix_rfl

theorem stdout_prefix_after (more : Nat) :
    (after program start input actions).stdout <+:
      (after program start input (actions + more)).stdout := by
  induction more with
  | zero => exact List.prefix_rfl
  | succ more ih =>
      rw [← Nat.add_assoc, after_succ]
      exact ih.trans (Alone.stdout_prefix_act _)

theorem Exits.stdout_isPrefix (exits : Exits program start input actions) (other : Nat) :
    (after program start input other).stdout <+: (after program start input actions).stdout := by
  rcases Nat.le_total other actions with fewer | more
  · obtain ⟨rest, rfl⟩ := Nat.exists_eq_add_of_le fewer
    exact stdout_prefix_after rest
  · obtain ⟨rest, rfl⟩ := Nat.exists_eq_add_of_le more
    simp only [exits.after_eq rest, List.prefix_rfl]

end Packetpig.ChildProcess
