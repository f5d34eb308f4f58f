/-
How a record reader has a program analyse its capture: one thread copies the
capture to the program's standard input, one takes what it writes to standard
error, and the reader reads its standard output or waits until it exits. The
three pipes hold a limited number of bytes each, and the steps of the threads
and of the program interleave in any order.

One step moves one byte, so that a thread that moves several at once takes
several steps. A poll that finds no bytes is not a step.
-/

import Packetpig.Library.ChildProcess
import Packetpig.Library.Transitions

namespace Packetpig.StreamingPcapRecordReader

open ChildProcess Transitions

/-- What an input stream gives before its end, or before its `IOException`. -/
structure Stream where
  bytes : List UInt8
  fails : Bool

structure Decompressors where
  gzip : Stream → Option Stream
  bzip2 : Stream → Option Stream

def opened (decompressors : Decompressors) (name : List Char) (file : Stream) : Option Stream :=
  let name := name.map Char.toLower
  if ".gz".toList.isSuffixOf name then decompressors.gzip file
  else if ".bz".toList.isSuffixOf name || ".bz2".toList.isSuffixOf name then
    decompressors.bzip2 file
  else some file

/-- What `PcapStreamWriter.run` is doing: `caught` is its `catch` block. Both
streams are closed in `caught` and `done`. -/
inductive Writer where
  | copying (is : Stream)
  | caught
  | done

def Writer.rest : Writer → List UInt8
  | .copying is => is.bytes
  | .caught | .done => []

structure State (σ : Type) where
  writer : Writer
  stdin : List UInt8
  process : Option σ
  stdout : List UInt8
  stderr : List UInt8
  file : List UInt8
  /-- What the record reader has read. -/
  read : List UInt8

def State.initial {σ : Type} (start : σ) (is : Stream) : State σ :=
  { writer := .copying is, stdin := [], process := some start, stdout := [], stderr := [],
    file := [], read := [] }

/-- `start` is the program that the command names, as it begins. -/
def streamingProcess {σ : Type} (decompressors : Decompressors) (start : σ) (name : List Char)
    (file : Stream) : Option (State σ) :=
  (opened decompressors name file).map (State.initial start)

/-- How many bytes each pipe holds. -/
structure Pipes where
  stdin : Nat
  stdout : Nat
  stderr : Nat
  stdin_pos : 0 < stdin
  stdout_pos : 0 < stdout
  stderr_pos : 0 < stderr

/-- What the record reader does while the program runs: it reads lines, or it
is in `process.waitFor()`. -/
inductive Consumer where
  | reads
  | waits

inductive Step {σ : Type} (pipes : Pipes) (consumer : Consumer) (program : σ → Action σ) :
    State σ → State σ → Prop
  | copy {state : State σ} {byte : UInt8} {bytes : List UInt8} {fails : Bool}
      (copying : state.writer = .copying ⟨byte :: bytes, fails⟩)
      (running : state.process ≠ none) (room : state.stdin.length < pipes.stdin) :
      Step pipes consumer program state
        { state with writer := .copying ⟨bytes, fails⟩, stdin := state.stdin ++ [byte] }
  | copied {state : State σ} (copying : state.writer = .copying ⟨[], false⟩) :
      Step pipes consumer program state { state with writer := .done }
  | inputFails {state : State σ} (copying : state.writer = .copying ⟨[], true⟩) :
      Step pipes consumer program state { state with writer := .caught }
  | brokenPipe {state : State σ} {byte : UInt8} {bytes : List UInt8} {fails : Bool}
      (copying : state.writer = .copying ⟨byte :: bytes, fails⟩)
      (exited : state.process = none) :
      Step pipes consumer program state { state with writer := .caught }
  /-- The `catch` block prints what standard error has `available`. -/
  | report {state : State σ} (caught : state.writer = .caught) (available : Nat) :
      Step pipes consumer program state
        { state with writer := .done, stderr := state.stderr.drop available }
  /-- `StreamSink.run` -/
  | sink {state : State σ} {byte : UInt8} {bytes : List UInt8}
      (available : state.stderr = byte :: bytes) :
      Step pipes consumer program state { state with stderr := bytes }
  | readLine {state : State σ} {byte : UInt8} {bytes : List UInt8} (reads : consumer = .reads)
      (available : state.stdout = byte :: bytes) :
      Step pipes consumer program state
        { state with stdout := bytes, read := state.read ++ [byte] }
  | childReads {state : State σ} {process : σ} {next : Option UInt8 → σ} {byte : UInt8}
      {bytes : List UInt8} (running : state.process = some process)
      (action : program process = .read next) (available : state.stdin = byte :: bytes) :
      Step pipes consumer program state
        { state with process := some (next (some byte)), stdin := bytes }
  | childEnds {state : State σ} {process : σ} {next : Option UInt8 → σ}
      (running : state.process = some process) (action : program process = .read next)
      (empty : state.stdin = []) (closed : ∀ is, state.writer ≠ .copying is) :
      Step pipes consumer program state { state with process := some (next none) }
  | childPrints {state : State σ} {process next : σ} {byte : UInt8}
      (running : state.process = some process) (action : program process = .stdout byte next)
      (room : state.stdout.length < pipes.stdout) :
      Step pipes consumer program state
        { state with process := some next, stdout := state.stdout ++ [byte] }
  | childComplains {state : State σ} {process next : σ} {byte : UInt8}
      (running : state.process = some process) (action : program process = .stderr byte next)
      (room : state.stderr.length < pipes.stderr) :
      Step pipes consumer program state
        { state with process := some next, stderr := state.stderr ++ [byte] }
  | childSaves {state : State σ} {process next : σ} {byte : UInt8}
      (running : state.process = some process) (action : program process = .save byte next) :
      Step pipes consumer program state
        { state with process := some next, file := state.file ++ [byte] }
  | childWorks {state : State σ} {process next : σ} (running : state.process = some process)
      (action : program process = .work next) :
      Step pipes consumer program state { state with process := some next }
  | childExits {state : State σ} {process : σ} (running : state.process = some process)
      (action : program process = .exit) :
      Step pipes consumer program state { state with process := none }

variable {σ : Type} {pipes : Pipes} {consumer : Consumer} {program : σ → Action σ} {start : σ}
  {is : Stream} {state next : State σ} {actions : Nat}

/-! ### What the program does is what it does alone -/

structure Follows (pipes : Pipes) (consumer : Consumer) (program : σ → Action σ) (start : σ)
    (is : Stream) (state : State σ) (actions : Nat) : Prop where
  process : (after program start is.bytes actions).process = state.process
  input : state.process ≠ none →
    (after program start is.bytes actions).input = state.stdin ++ state.writer.rest
  stdout : (after program start is.bytes actions).stdout = state.read ++ state.stdout
  file : (after program start is.bytes actions).file = state.file
  held : state.stdout.length ≤ pipes.stdout
  unread : consumer = .waits → state.read = []

theorem Follows.initial : Follows pipes consumer program start is (State.initial start is) 0 where
  process := rfl
  input _ := rfl
  stdout := rfl
  file := rfl
  held := Nat.zero_le _
  unread _ := rfl

theorem Follows.after_succ (follows : Follows pipes consumer program start is state actions)
    {process : σ} (running : state.process = some process) :
    after program start is.bytes (actions + 1) =
      (after program start is.bytes actions).perform (program process) := by
  rw [ChildProcess.after_succ, Alone.act_of_process (follows.process.trans running)]

theorem Writer.rest_of_closed {writer : Writer} (closed : ∀ is, writer ≠ .copying is) :
    writer.rest = [] := by
  cases writer with
  | copying is => exact absurd rfl (closed is)
  | caught | done => rfl

def Writer.pending : Writer → Nat
  | .copying is => is.bytes.length + 2
  | .caught => 1
  | .done => 0

def State.pending (state : State σ) : Nat :=
  state.writer.pending + state.stdout.length + state.stderr.length

theorem Follows.step (follows : Follows pipes consumer program start is state actions)
    (moved : Step pipes consumer program state next) :
    (Follows pipes consumer program start is next actions ∧ next.pending < state.pending) ∨
      (state.process ≠ none ∧ Follows pipes consumer program start is next (actions + 1) ∧
        next.pending ≤ state.pending + 1) := by
  have alone {process : σ} (running : state.process = some process) :=
    follows.after_succ running
  obtain ⟨process, input, stdout, file, held, unread⟩ := follows
  cases moved with
  | @copy byte bytes _ copying running room =>
      refine Or.inl ⟨⟨process, fun _ => ?_, stdout, file, held, unread⟩, ?_⟩
      · rw [input running, copying]
        exact List.append_cons state.stdin byte bytes
      · simp [State.pending, Writer.pending, copying]
  | copied copying =>
      refine Or.inl ⟨⟨process, fun running => ?_, stdout, file, held, unread⟩, ?_⟩
      · rw [input running, copying]
        rfl
      · simp [State.pending, Writer.pending, copying]
  | inputFails copying =>
      refine Or.inl ⟨⟨process, fun running => ?_, stdout, file, held, unread⟩, ?_⟩
      · rw [input running, copying]
        rfl
      · simp [State.pending, Writer.pending, copying]
  | brokenPipe copying exited =>
      refine Or.inl ⟨⟨process, ?_, stdout, file, held, unread⟩, ?_⟩
      · exact fun running => absurd exited running
      · simp [State.pending, Writer.pending, copying]
  | report caught available =>
      refine Or.inl ⟨⟨process, fun running => ?_, stdout, file, held, unread⟩, ?_⟩
      · rw [input running, caught]
        rfl
      · simp [State.pending, Writer.pending, caught]
        omega
  | sink available =>
      refine Or.inl ⟨⟨process, input, stdout, file, held, unread⟩, ?_⟩
      simp [State.pending, available]
  | @readLine byte bytes reads available =>
      rw [available] at stdout held
      refine Or.inl ⟨⟨process, input, ?_, file, Nat.le_of_succ_le held, fun waits => ?_⟩, ?_⟩
      · rw [stdout]
        exact List.append_cons state.read byte bytes
      · rw [reads] at waits
        cases waits
      · simp [State.pending, available]
  | childReads running action available =>
      have running' := Option.ne_none_iff_exists'.mpr ⟨_, running⟩
      have given := input running'
      have acted := alone running
      rw [available] at given
      rw [action, Alone.perform, given] at acted
      exact Or.inr ⟨running', ⟨congrArg Alone.process acted, fun _ => congrArg Alone.input acted,
        (congrArg Alone.stdout acted).trans stdout, (congrArg Alone.file acted).trans file, held,
        unread⟩, Nat.le_succ _⟩
  | childEnds running action empty closed =>
      have running' := Option.ne_none_iff_exists'.mpr ⟨_, running⟩
      have rest : state.writer.rest = [] := Writer.rest_of_closed closed
      have given := input running'
      have acted := alone running
      rw [empty, rest] at given
      rw [action, Alone.perform, given] at acted
      refine Or.inr ⟨running', ⟨congrArg Alone.process acted, fun _ => ?_,
        (congrArg Alone.stdout acted).trans stdout, (congrArg Alone.file acted).trans file, held,
        unread⟩, Nat.le_succ _⟩
      rw [acted, empty, rest]
      rfl
  | @childPrints _ _ byte running action room =>
      have running' := Option.ne_none_iff_exists'.mpr ⟨_, running⟩
      have acted := alone running
      rw [action, Alone.perform] at acted
      refine Or.inr ⟨running', ⟨congrArg Alone.process acted,
        fun _ => (congrArg Alone.input acted).trans (input running'), ?_,
        (congrArg Alone.file acted).trans file, ?_, unread⟩, ?_⟩
      · rw [acted, stdout, List.append_assoc]
      · rw [List.length_append]
        exact room
      · simp [State.pending]
        omega
  | childComplains running action room =>
      have running' := Option.ne_none_iff_exists'.mpr ⟨_, running⟩
      have acted := alone running
      rw [action, Alone.perform] at acted
      refine Or.inr ⟨running', ⟨congrArg Alone.process acted,
        fun _ => (congrArg Alone.input acted).trans (input running'),
        (congrArg Alone.stdout acted).trans stdout, (congrArg Alone.file acted).trans file, held,
        unread⟩, ?_⟩
      simp [State.pending]
      omega
  | @childSaves _ _ byte running action =>
      have running' := Option.ne_none_iff_exists'.mpr ⟨_, running⟩
      have acted := alone running
      rw [action, Alone.perform, file] at acted
      exact Or.inr ⟨running', ⟨congrArg Alone.process acted,
        fun _ => (congrArg Alone.input acted).trans (input running'),
        (congrArg Alone.stdout acted).trans stdout, congrArg Alone.file acted, held, unread⟩,
        Nat.le_succ _⟩
  | childWorks running action =>
      have running' := Option.ne_none_iff_exists'.mpr ⟨_, running⟩
      have acted := alone running
      rw [action, Alone.perform] at acted
      exact Or.inr ⟨running', ⟨congrArg Alone.process acted,
        fun _ => (congrArg Alone.input acted).trans (input running'),
        (congrArg Alone.stdout acted).trans stdout, (congrArg Alone.file acted).trans file, held,
        unread⟩, Nat.le_succ _⟩
  | childExits running action =>
      have running' := Option.ne_none_iff_exists'.mpr ⟨_, running⟩
      have acted := alone running
      rw [action, Alone.perform] at acted
      exact Or.inr ⟨running', ⟨congrArg Alone.process acted, fun running => absurd rfl running,
        (congrArg Alone.stdout acted).trans stdout, (congrArg Alone.file acted).trans file, held,
        unread⟩, Nat.le_succ _⟩

section Stuck

variable (stuck : Stuck (Step pipes consumer program) state)

include stuck

theorem stderr_of_stuck : state.stderr = [] := by
  cases available : state.stderr with
  | nil => rfl
  | cons byte bytes => exact absurd (Step.sink available) (stuck _)

theorem stdout_of_stuck (reads : consumer = .reads) : state.stdout = [] := by
  cases available : state.stdout with
  | nil => rfl
  | cons byte bytes => exact absurd (Step.readLine reads available) (stuck _)

theorem exited_of_stuck
    (room : ∀ process byte after, state.process = some process →
      program process = .stdout byte after → state.stdout.length < pipes.stdout) :
    state.process = none := by
  cases running : state.process with
  | none => rfl
  | some process =>
      exfalso
      cases action : program process with
      | read next =>
          cases available : state.stdin with
          | cons byte bytes => exact stuck _ (.childReads running action available)
          | nil =>
              -- a program that waits for input gets a byte, or the writer can go on
              cases writer : state.writer with
              | copying is =>
                  obtain ⟨bytes, fails⟩ := is
                  cases bytes with
                  | cons byte bytes =>
                      refine stuck _ (.copy writer (Option.ne_none_iff_exists'.mpr ⟨_, running⟩) ?_)
                      rw [available]
                      exact pipes.stdin_pos
                  | nil =>
                      cases fails with
                      | false => exact stuck _ (.copied writer)
                      | true => exact stuck _ (.inputFails writer)
              | caught => exact stuck _ (.report writer 0)
              | done =>
                  refine stuck _ (.childEnds running action available fun is copying => ?_)
                  rw [writer] at copying
                  cases copying
      | stdout byte after =>
          exact stuck _ (.childPrints running action (room process byte after running action))
      | stderr byte after =>
          refine stuck _ (.childComplains running action ?_)
          rw [stderr_of_stuck stuck]
          exact pipes.stderr_pos
      | save byte after => exact stuck _ (.childSaves running action)
      | work after => exact stuck _ (.childWorks running action)
      | exit => exact stuck _ (.childExits running action)

end Stuck

/-- So many steps can follow at most, of a program that exits within `limit` actions. -/
def Ranked (pipes : Pipes) (consumer : Consumer) (program : σ → Action σ) (start : σ)
    (is : Stream) (limit : Nat) (state : State σ) (rank : Nat) : Prop :=
  ∃ actions, Follows pipes consumer program start is state actions ∧ actions ≤ limit ∧
    rank = state.pending + 2 * (limit - actions)

theorem Ranked.descends {limit rank : Nat} (exits : Exits program start is.bytes limit)
    (ranked : Ranked pipes consumer program start is limit state rank)
    (moved : Step pipes consumer program state next) :
    ∃ lower, lower < rank ∧ Ranked pipes consumer program start is limit next lower := by
  obtain ⟨actions, follows, within, rfl⟩ := ranked
  rcases follows.step moved with ⟨follows', less⟩ | ⟨running, follows', more⟩
  · exact ⟨_, Nat.add_lt_add_right less _, actions, follows', within, rfl⟩
  · have acting : actions < limit := by
      refine exits.lt_of_running ?_
      rw [follows.process]
      exact running
    exact ⟨_, by omega, actions + 1, follows', acting, rfl⟩

theorem Ranked.initial (limit : Nat) : Ranked pipes consumer program start is limit
    (State.initial start is) (is.bytes.length + 2 + 2 * limit) :=
  ⟨0, .initial, Nat.zero_le limit, rfl⟩

theorem follows_of_run {count : Nat}
    (run : Run (Step pipes consumer program) (State.initial start is) count state) :
    ∃ actions, Follows pipes consumer program start is state actions := by
  refine run.preserves
    (fun state => ∃ actions, Follows pipes consumer program start is state actions) ?_
    ⟨0, .initial⟩
  rintro state next ⟨actions, follows⟩ moved
  rcases follows.step moved with ⟨follows', -⟩ | ⟨-, follows', -⟩
  · exact ⟨actions, follows'⟩
  · exact ⟨actions + 1, follows'⟩

theorem count_le_of_run {count limit : Nat} (exits : Exits program start is.bytes limit)
    (run : Run (Step pipes consumer program) (State.initial start is) count state) :
    count ≤ is.bytes.length + 2 + 2 * limit := by
  obtain ⟨left, within, -⟩ :=
    run.ranked (fun _ _ _ ranked moved => ranked.descends exits moved) (Ranked.initial limit)
  omega

theorem exists_stuck_run {limit : Nat} (exits : Exits program start is.bytes limit) :
    ∃ count state, Run (Step pipes consumer program) (State.initial start is) count state ∧
      Stuck (Step pipes consumer program) state :=
  exists_run_stuck (fun _ _ _ ranked moved => ranked.descends exits moved) (Ranked.initial limit)

/-- The reader gets all that the program writes about the capture, in whatever
order the threads and the program take their steps and however little the pipes
hold; and about the part that could be read where the capture is damaged. -/
theorem reader_reads_output (pipes : Pipes) (program : σ → Action σ) (start : σ)
    (decompressors : Decompressors) (name : List Char) (file is : Stream) (limit : Nat)
    (opens : opened decompressors name file = some is)
    (exits : Exits program start is.bytes limit) :
    ∃ initial, streamingProcess decompressors start name file = some initial ∧
      ∀ count state, Run (Step pipes .reads program) initial count state →
        count ≤ is.bytes.length + 2 + 2 * limit ∧
        state.read <+: (after program start is.bytes limit).stdout ∧
        (Stuck (Step pipes .reads program) state →
          state.process = none ∧ state.read = (after program start is.bytes limit).stdout) := by
  refine ⟨State.initial start is, by rw [streamingProcess, opens, Option.map_some], ?_⟩
  intro count state run
  obtain ⟨actions, follows⟩ := follows_of_run run
  have read : state.read <+: (after program start is.bytes actions).stdout := by
    rw [follows.stdout]
    exact List.prefix_append _ _
  refine ⟨count_le_of_run exits run, read.trans (exits.stdout_isPrefix actions), fun stuck => ?_⟩
  have empty := stdout_of_stuck stuck rfl
  have exited := exited_of_stuck stuck fun _ _ _ _ _ => by
    rw [empty]
    exact pipes.stdout_pos
  have complete := exits.eq_of_exited (follows.process.trans exited)
  refine ⟨exited, ?_⟩
  rw [← complete, follows.stdout, empty, List.append_nil]

private def copier : Option UInt8 ⊕ Bool → Action (Option UInt8 ⊕ Bool)
  | .inl none => .read fun
      | none => .inr false
      | some 0 => .inr true
      | some byte => .inl (some byte)
  | .inl (some byte) => .stdout byte (.inl none)
  | .inr true => .stderr 33 (.inl none)
  | .inr false => .exit

/-- A compressed capture that breaks off, pipes that hold a byte each, and a
program that copies what it reads but complains about zeros. -/
theorem reader_reads_output_damaged :
    opened ⟨fun file => some ⟨file.bytes.drop 2, true⟩, some⟩ "Day.PCAP.GZ".toList
        ⟨[31, 139, 5, 0, 6], false⟩ = some ⟨[5, 0, 6], true⟩ ∧
      (after copier (.inl none) [5, 0, 6] 8).stdout = [5, 6] ∧
      ∃ initial, streamingProcess ⟨fun file => some ⟨file.bytes.drop 2, true⟩, some⟩
          (.inl none) "Day.PCAP.GZ".toList ⟨[31, 139, 5, 0, 6], false⟩ = some initial ∧
        ∀ count state,
          Run (Step ⟨1, 1, 1, by decide, by decide, by decide⟩ .reads copier) initial count
            state →
          count ≤ 3 + 2 + 2 * 8 ∧
          state.read <+: (after copier (.inl none) [5, 0, 6] 8).stdout ∧
          (Stuck (Step ⟨1, 1, 1, by decide, by decide, by decide⟩ .reads copier) state →
            state.process = none ∧
            state.read = (after copier (.inl none) [5, 0, 6] 8).stdout) :=
  ⟨rfl, rfl, reader_reads_output ⟨1, 1, 1, by decide, by decide, by decide⟩ copier (.inl none)
    ⟨fun file => some ⟨file.bytes.drop 2, true⟩, some⟩ "Day.PCAP.GZ".toList
    ⟨[31, 139, 5, 0, 6], false⟩ ⟨[5, 0, 6], true⟩ 8 rfl rfl⟩

end Packetpig.StreamingPcapRecordReader
