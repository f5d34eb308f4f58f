/-
SnortRecordReader.initialize: runs snort on the capture, waits until it exits
and opens its alert file. Nothing reads what snort writes to standard output.
-/

import Packetpig.Detection.SnortRecordReader
import Packetpig.Pcap.StreamingPcapRecordReader

namespace Packetpig.SnortRecordReader

open ChildProcess StreamingPcapRecordReader Text Transitions

variable {σ : Type} {pipes : Pipes} {program : σ → Action σ} {start : σ} {is : Stream}
  {state : State σ} {limit : Nat}

/-- The `reader` that it has set; nothing as long as `process.waitFor()` has not
returned. -/
def initialized (state : State σ) : Option (Option Bytes) :=
  match state.process with
  | some _ => none
  | none => some (initializeReader state.file)

theorem initialized_of_exited (exited : state.process = none) :
    initialized state = some (initializeReader state.file) := by
  rw [initialized, exited]

theorem initialized_eq_none_iff : initialized state = none ↔ state.process ≠ none := by
  cases running : state.process with
  | none => simp [initialized, running]
  | some process => simp [initialized, running]

section Run

variable {count : Nat} (exits : Exits program start is.bytes limit)
  (run : Run (Step pipes .waits program) (State.initial start is) count state)

include exits run

theorem length_le_of_exited (exited : state.process = none) :
    (after program start is.bytes limit).stdout.length ≤ pipes.stdout := by
  obtain ⟨actions, follows⟩ := follows_of_run run
  rw [← exits.eq_of_exited (follows.process.trans exited), follows.stdout, follows.unread rfl]
  exact follows.held

theorem file_of_exited (exited : state.process = none) :
    state.file = (after program start is.bytes limit).file := by
  obtain ⟨actions, follows⟩ := follows_of_run run
  rw [← exits.eq_of_exited (follows.process.trans exited), follows.file]

theorem exited_of_fits (stuck : Stuck (Step pipes .waits program) state)
    (fits : (after program start is.bytes limit).stdout.length ≤ pipes.stdout) :
    state.process = none := by
  obtain ⟨actions, follows⟩ := follows_of_run run
  refine exited_of_stuck stuck fun process byte next running action => ?_
  -- the byte that it is about to write is one of those that fit
  have written := (exits.stdout_isPrefix (actions + 1)).length_le
  rw [follows.after_succ running, action, Alone.perform, follows.stdout, follows.unread rfl,
    List.nil_append, List.length_append, List.length_singleton] at written
  omega

end Run

/-- It always comes back, and then with the alerts of the whole capture, if all
that snort writes to standard output fits into the pipe; else it never does. -/
theorem initialized_iff_fits (pipes : Pipes) (program : σ → Action σ) (start : σ)
    (decompressors : Decompressors) (name : List Char) (file is : Stream) (limit : Nat)
    (opens : opened decompressors name file = some is)
    (exits : Exits program start is.bytes limit) :
    ∃ initial, streamingProcess decompressors start name file = some initial ∧
      (∀ count state, Run (Step pipes .waits program) initial count state →
        count ≤ is.bytes.length + 2 + 2 * limit) ∧
      ((∀ count state, Run (Step pipes .waits program) initial count state →
          Stuck (Step pipes .waits program) state →
          initialized state =
            some (initializeReader (after program start is.bytes limit).file)) ↔
        (after program start is.bytes limit).stdout.length ≤ pipes.stdout) ∧
      (pipes.stdout < (after program start is.bytes limit).stdout.length →
        ∀ count state, Run (Step pipes .waits program) initial count state →
          initialized state = none) := by
  refine ⟨State.initial start is, by rw [streamingProcess, opens, Option.map_some],
    fun count state run => count_le_of_run exits run, ⟨fun returns => ?_, fun fits => ?_⟩, ?_⟩
  · obtain ⟨count, state, run, stuck⟩ :=
      @exists_stuck_run σ pipes .waits program start is limit exits
    have returned := returns count state run stuck
    by_contra overflows
    have exited : state.process = none := by
      by_contra running
      rw [initialized_eq_none_iff.mpr running] at returned
      cases returned
    exact overflows (length_le_of_exited exits run exited)
  · intro count state run stuck
    have exited := exited_of_fits exits run stuck fits
    rw [initialized_of_exited exited, file_of_exited exits run exited]
  · intro overflows count state run
    rw [initialized_eq_none_iff]
    intro exited
    exact Nat.not_le_of_lt overflows (length_le_of_exited exits run exited)

private def dots : Nat → Action Nat
  | 0 => .exit
  | 1 => .save 65 0
  | left + 2 => .stdout 46 (left + 1)

/-- Three dots do not fit into two bytes. -/
theorem initialized_iff_fits_dots :
    (∃ initial, streamingProcess ⟨some, some⟩ 4 "a.pcap".toList ⟨[1, 2], false⟩ = some initial ∧
      ∀ count state,
        Run (Step ⟨1, 2, 1, by decide, by decide, by decide⟩ .waits dots) initial count state →
        initialized state = none) ∧
      ∃ initial, streamingProcess ⟨some, some⟩ 4 "a.pcap".toList ⟨[1, 2], false⟩ = some initial ∧
        ∀ count state,
          Run (Step ⟨1, 3, 1, by decide, by decide, by decide⟩ .waits dots) initial count state →
          Stuck (Step ⟨1, 3, 1, by decide, by decide, by decide⟩ .waits dots) state →
          initialized state = some (some [65]) := by
  obtain ⟨initial, started, -, -, never⟩ :=
    initialized_iff_fits ⟨1, 2, 1, by decide, by decide, by decide⟩ dots 4 ⟨some, some⟩
      "a.pcap".toList ⟨[1, 2], false⟩ ⟨[1, 2], false⟩ 5 rfl rfl
  obtain ⟨initial', started', -, returns, -⟩ :=
    initialized_iff_fits ⟨1, 3, 1, by decide, by decide, by decide⟩ dots 4 ⟨some, some⟩
      "a.pcap".toList ⟨[1, 2], false⟩ ⟨[1, 2], false⟩ 5 rfl rfl
  exact ⟨⟨initial, started, never (by decide)⟩, initial', started', returns.mpr (by decide)⟩

end Packetpig.SnortRecordReader
