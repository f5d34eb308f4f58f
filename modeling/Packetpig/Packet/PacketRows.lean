/-
The rows of PacketRecordReader over any sequence of packet outcomes.

The first fetch of a call reports a NegativeArraySizeException as `null` and is
checked for it; the fetches of the loop that skips other frames are not, so the
same failure ends a call in two ways.
-/

import Packetpig.Packet.PacketRecordReader

namespace Packetpig

open Text

namespace PacketRecordReader

section Calls

variable {σ δ : Type} (input : PcapInputStream σ) (decode : δ → PcapPacket → Decoding × δ)

theorem nextPacket_remaining {reader after : PacketRecordReader σ δ} {packetTuple : PacketTuple}
    (fetched : nextPacket input decode reader = (.ok (some packetTuple), after)) :
    input.remaining after.is < input.remaining reader.is := by
  unfold nextPacket at fetched
  cases pulled : input.getPacket reader.is with
  | stop exception is =>
      rw [pulled] at fetched
      cases exception <;> cases fetched
  | item packet is =>
      rw [pulled] at fetched
      have consumed := input.remaining_lt reader.is packet is pulled
      rw [← (Prod.mk.inj fetched).2]
      exact consumed

theorem skip_fuel (fuel : Nat) (packetTuple : PacketTuple) (reader : PacketRecordReader σ δ)
    (enough : input.remaining reader.is < fuel) :
    skip input decode fuel packetTuple reader =
      skip input decode (input.remaining reader.is + 1) packetTuple reader := by
  induction bound : input.remaining reader.is using Nat.strongRecOn
    generalizing fuel packetTuple reader with
  | ind size ih =>
      cases fuel with
      | zero => omega
      | succ fuel =>
          unfold skip
          cases ipv4 : packetTuple.isIpv4 with
          | true => rfl
          | false =>
              simp only [Bool.false_eq_true, if_false]
              rcases fetched : nextPacket input decode reader with ⟨_ | _ | next, after⟩
              · rfl
              · rfl
              · have consumed := nextPacket_remaining input decode fetched
                have smaller : input.remaining after.is < size := by omega
                have left := ih _ smaller fuel next after (by omega) rfl
                have right := ih _ smaller size next after smaller rfl
                change skip input decode fuel next after = skip input decode size next after
                rw [left, right]

variable {input decode}

theorem nextKeyValue_ipv4 {reader after : PacketRecordReader σ δ} {packetTuple : PacketTuple}
    (fetched : nextPacket input decode reader = (.ok (some packetTuple), after))
    (ipv4 : packetTuple.isIpv4 = true) :
    nextKeyValue input decode reader = .item (row packetTuple) after := by
  simp only [nextKeyValue, fetched, skip, ipv4, if_true]

theorem nextKeyValue_none {reader after : PacketRecordReader σ δ}
    (fetched : nextPacket input decode reader = (.ok none, after)) :
    nextKeyValue input decode reader =
      .stop .returnedFalse { after with is := input.close after.is } := by
  simp only [nextKeyValue, fetched]

theorem nextKeyValue_error {reader after : PacketRecordReader σ δ} {exception : JavaException}
    (fetched : nextPacket input decode reader = (.error exception, after)) :
    nextKeyValue input decode reader = catchException input exception after := by
  simp only [nextKeyValue, fetched]

theorem nextKeyValue_skip {reader middle : PacketRecordReader σ δ} {packetTuple : PacketTuple}
    (fetched : nextPacket input decode reader = (.ok (some packetTuple), middle))
    (other : packetTuple.isIpv4 = false) (found : (nextPacket input decode middle).1 ≠ .ok none) :
    nextKeyValue input decode reader = nextKeyValue input decode middle := by
  simp only [nextKeyValue, fetched]
  rw [skip]
  simp only [other, Bool.false_eq_true, if_false]
  rcases again : nextPacket input decode middle with ⟨exception | _ | next, after⟩
  · rfl
  · rw [again] at found
    exact absurd rfl found
  · have consumed := nextPacket_remaining input decode again
    simp only
    rw [skip_fuel input decode _ next after consumed]

theorem nextKeyValue_skip_none {reader middle after : PacketRecordReader σ δ}
    {packetTuple : PacketTuple}
    (fetched : nextPacket input decode reader = (.ok (some packetTuple), middle))
    (other : packetTuple.isIpv4 = false)
    (missing : nextPacket input decode middle = (.ok none, after)) :
    nextKeyValue input decode reader = .stop (.threw .nullPointerException) after := by
  simp only [nextKeyValue, fetched]
  unfold skip
  simp only [other, Bool.false_eq_true, if_false, missing]
  rfl

theorem catchException_ignored {exception : JavaException} (caught : ignored exception = true)
    (reader : PacketRecordReader σ δ) :
    catchException input exception reader =
      .stop .returnedFalse { reader with is := input.close reader.is } := by
  simp only [catchException, caught, if_true]

theorem nextKeyValue_closed {reader : PacketRecordReader σ δ} (closed : input.Closed reader.is) :
    ∃ after, nextKeyValue input decode reader = .stop .returnedFalse after ∧
      input.Closed after.is := by
  obtain ⟨is, pulled, -⟩ := input.getPacket_closed reader.is closed
  have fetched : nextPacket input decode reader = (.error .ioException, { reader with is }) := by
    simp only [nextPacket, pulled]
  refine ⟨{ reader with is := input.close is }, ?_, input.close_closed _⟩
  rw [nextKeyValue_error fetched]
  exact catchException_ignored rfl _

end Calls

/-! ### Sequences of outcomes -/

inductive Outcome where
  | ipv4 (packetTuple : PacketTuple)
  | nonIpv4 (packetTuple : PacketTuple)
  | decodeUnderflow
  | negativeArraySize
  | ioFailure

namespace Outcome

def fails : Outcome → Bool
  | ipv4 _ | nonIpv4 _ => false
  | _ => true

/-- The rows of the IPv4 packets in front of the first failure. -/
def rows : List Outcome → List (Keyed (List PacketValue))
  | ipv4 packetTuple :: outcomes => row packetTuple :: rows outcomes
  | nonIpv4 _ :: outcomes => rows outcomes
  | _ => []

/-- The first failure is the NegativeArraySizeException, and the frame directly
in front of it is not IPv4. -/
def NullSkipped (outcomes : List Outcome) : Prop :=
  ∃ before packetTuple later,
    outcomes = before ++ nonIpv4 packetTuple :: negativeArraySize :: later ∧
      ∀ outcome ∈ before, outcome.fails = false

theorem not_nullSkipped_of_fails {outcome : Outcome} (failed : outcome.fails = true)
    (later : List Outcome) : ¬ NullSkipped (outcome :: later) := by
  intro found
  rcases found with ⟨before, packetTuple, rest, same, delivered⟩
  cases before with
  | nil =>
      rw [(List.cons.inj same).1] at failed
      cases failed
  | cons head before =>
      rw [(List.cons.inj same).1, delivered head List.mem_cons_self] at failed
      cases failed

theorem nullSkipped_cons_iff {outcome : Outcome} (delivered : outcome.fails = false)
    {outcomes : List Outcome}
    (elsewhere : ∀ packetTuple later, outcome = nonIpv4 packetTuple →
      outcomes ≠ negativeArraySize :: later) :
    NullSkipped (outcome :: outcomes) ↔ NullSkipped outcomes := by
  constructor
  · intro found
    rcases found with ⟨before, packetTuple, later, same, deliveredBefore⟩
    cases before with
    | nil =>
        have parts := List.cons.inj same
        exact absurd parts.2 (elsewhere packetTuple later parts.1)
    | cons head before =>
        exact ⟨before, packetTuple, later, (List.cons.inj same).2,
          fun other member => deliveredBefore other (List.mem_cons_of_mem _ member)⟩
  · intro found
    rcases found with ⟨before, packetTuple, later, rfl, deliveredBefore⟩
    refine ⟨outcome :: before, packetTuple, later, rfl, ?_⟩
    exact List.forall_mem_cons.mpr ⟨delivered, deliveredBefore⟩

end Outcome

section Runs

variable {σ δ : Type} (input : PcapInputStream σ) (decode : δ → PcapPacket → Decoding × δ)

/-- One `getPacket`, and one `decode` where a packet came. -/
inductive Fetches : PacketRecordReader σ δ → Outcome → PacketRecordReader σ δ → Prop
  | ipv4 {reader is packet packetTuple} (pulled : input.getPacket reader.is = .item packet is)
      (decoded : runDecoding packet (decode reader.eth packet).1 = .ok packetTuple)
      (ipv4 : packetTuple.isIpv4 = true) :
      Fetches reader (.ipv4 packetTuple) ⟨is, (decode reader.eth packet).2⟩
  | nonIpv4 {reader is packet packetTuple} (pulled : input.getPacket reader.is = .item packet is)
      (decoded : runDecoding packet (decode reader.eth packet).1 = .ok packetTuple)
      (other : packetTuple.isIpv4 = false) :
      Fetches reader (.nonIpv4 packetTuple) ⟨is, (decode reader.eth packet).2⟩
  | decodeUnderflow {reader is packet} (pulled : input.getPacket reader.is = .item packet is)
      (thrown : runDecoding packet (decode reader.eth packet).1 =
        .error .bufferUnderflowException) :
      Fetches reader .decodeUnderflow ⟨is, (decode reader.eth packet).2⟩
  | negativeArraySize {reader is}
      (pulled : input.getPacket reader.is = .stop .negativeArraySizeException is) :
      Fetches reader .negativeArraySize { reader with is }
  | ioFailure {reader is} (pulled : input.getPacket reader.is = .stop .ioException is) :
      Fetches reader .ioFailure { reader with is }

/-- Fetching one packet after another has these outcomes, up to the first
failure; what is behind it is not reached. -/
inductive Meets : PacketRecordReader σ δ → List Outcome → Prop
  | failed {reader after outcome later} (fetched : Fetches input decode reader outcome after)
      (failed : outcome.fails = true) : Meets reader (outcome :: later)
  | delivered {reader after outcome outcomes} (fetched : Fetches input decode reader outcome after)
      (delivered : outcome.fails = false) (rest : Meets after outcomes) :
      Meets reader (outcome :: outcomes)

variable {input decode}

def Outcome.result : Outcome → Except JavaException (Option PacketTuple)
  | ipv4 packetTuple | nonIpv4 packetTuple => .ok (some packetTuple)
  | decodeUnderflow => .error .bufferUnderflowException
  | negativeArraySize => .ok none
  | ioFailure => .error .ioException

theorem Fetches.nextPacket_eq {reader after : PacketRecordReader σ δ} {outcome : Outcome}
    (fetched : Fetches input decode reader outcome after) :
    nextPacket input decode reader = (outcome.result, after) := by
  cases fetched with
  | ipv4 pulled decoded _ => simp only [nextPacket, pulled, decoded]; rfl
  | nonIpv4 pulled decoded _ => simp only [nextPacket, pulled, decoded]; rfl
  | decodeUnderflow pulled thrown => simp only [nextPacket, pulled, thrown]; rfl
  | negativeArraySize pulled => simp only [nextPacket, pulled]; rfl
  | ioFailure pulled => simp only [nextPacket, pulled]; rfl

theorem nextKeyValue_of_fails {reader after : PacketRecordReader σ δ} {outcome : Outcome}
    (fetched : Fetches input decode reader outcome after) (failed : outcome.fails = true) :
    nextKeyValue input decode reader =
      .stop .returnedFalse { after with is := input.close after.is } := by
  have result := fetched.nextPacket_eq
  cases outcome with
  | ipv4 _ => cases failed
  | nonIpv4 _ => cases failed
  | decodeUnderflow => rw [nextKeyValue_error result, catchException_ignored rfl]
  | negativeArraySize => rw [nextKeyValue_none result]
  | ioFailure => rw [nextKeyValue_error result, catchException_ignored rfl]

theorem Outcome.eq_negativeArraySize {outcome : Outcome} (null : outcome.result = .ok none) :
    outcome = negativeArraySize := by
  cases outcome with
  | negativeArraySize => rfl
  | _ => cases null

theorem Meets.exists_fetches {reader : PacketRecordReader σ δ} {outcomes : List Outcome}
    (met : Meets input decode reader outcomes) :
    ∃ outcome later after, outcomes = outcome :: later ∧
      Fetches input decode reader outcome after := by
  cases met with
  | failed fetched _ => exact ⟨_, _, _, rfl, fetched⟩
  | delivered fetched _ _ => exact ⟨_, _, _, rfl, fetched⟩

variable (input decode)

/-- The calls return true with these rows and then false with the stream
closed, as does every call on a closed stream. -/
structure EndsQuietly (reader : PacketRecordReader σ δ) (rows : List (Keyed (List PacketValue))) :
    Prop where
  run : ∃ final, Yields (nextKeyValue input decode) reader rows .returnedFalse final ∧
    input.Closed final.is
  again : ∀ final : PacketRecordReader σ δ, input.Closed final.is →
    ∃ after, nextKeyValue input decode final = .stop .returnedFalse after ∧ input.Closed after.is

variable {input decode}

private theorem endsQuietly_congr {reader middle : PacketRecordReader σ δ}
    {rows : List (Keyed (List PacketValue))}
    (same : nextKeyValue input decode reader = nextKeyValue input decode middle) :
    EndsQuietly input decode reader rows ↔ EndsQuietly input decode middle rows := by
  constructor
  · intro found
    rcases found with ⟨⟨final, run, closed⟩, again⟩
    exact ⟨⟨final, run.congr_state same.symm, closed⟩, again⟩
  · intro found
    rcases found with ⟨⟨final, run, closed⟩, again⟩
    exact ⟨⟨final, run.congr_state same, closed⟩, again⟩

private theorem endsQuietly_cons_iff {reader after : PacketRecordReader σ δ}
    {first : Keyed (List PacketValue)} {rows : List (Keyed (List PacketValue))}
    (returned : nextKeyValue input decode reader = .item first after) :
    EndsQuietly input decode reader (first :: rows) ↔ EndsQuietly input decode after rows := by
  constructor
  · intro found
    rcases found with ⟨⟨final, run, closed⟩, again⟩
    refine ⟨⟨final, ?_, closed⟩, again⟩
    cases run with
    | item pulled rest =>
        rw [returned] at pulled
        cases pulled
        exact rest
  · intro found
    rcases found with ⟨⟨final, run, closed⟩, again⟩
    exact ⟨⟨final, .item returned run, closed⟩, again⟩

private theorem not_endsQuietly_of_threw {reader after : PacketRecordReader σ δ}
    {rows : List (Keyed (List PacketValue))} {exception : JavaException}
    (threw : nextKeyValue input decode reader = .stop (.threw exception) after) :
    ¬ EndsQuietly input decode reader rows := by
  intro found
  rcases found with ⟨⟨final, run, -⟩, -⟩
  cases run with
  | stop pulled =>
      rw [threw] at pulled
      cases pulled
  | item pulled _ =>
      rw [threw] at pulled
      cases pulled

/-- Whatever the sequence of outcomes, the calls deliver the rows in front of
the first failure and end quietly, unless the loop runs into the `null`. -/
theorem endsQuietly_iff {reader : PacketRecordReader σ δ} {outcomes : List Outcome}
    (met : Meets input decode reader outcomes) :
    EndsQuietly input decode reader (Outcome.rows outcomes) ↔
      ¬ Outcome.NullSkipped outcomes := by
  induction met with
  | @failed reader after outcome later fetched failed =>
      refine iff_of_true ?_ (Outcome.not_nullSkipped_of_fails failed later)
      have none : Outcome.rows (outcome :: later) = [] := by
        cases outcome <;> first | rfl | cases failed
      rw [none]
      exact ⟨⟨_, .stop (nextKeyValue_of_fails fetched failed), input.close_closed _⟩,
        fun _ => nextKeyValue_closed⟩
  | @delivered reader middle outcome outcomes fetched delivered rest ih =>
      have result := fetched.nextPacket_eq
      cases fetched with
      | ipv4 pulled decoded ipv4 =>
          rw [Outcome.nullSkipped_cons_iff rfl (fun _ _ same => by cases same), ← ih]
          exact endsQuietly_cons_iff (nextKeyValue_ipv4 result ipv4)
      | @nonIpv4 is packet packetTuple pulled decoded other =>
          -- The next outcome is met by the loop of the same call.
          obtain ⟨next, later, after, rfl, fetchedNext⟩ := rest.exists_fetches
          have resultNext := fetchedNext.nextPacket_eq
          by_cases null : next = .negativeArraySize
          · subst null
            refine iff_of_false ?_ (fun safe => safe ⟨[], packetTuple, later, rfl, ?_⟩)
            · exact not_endsQuietly_of_threw (nextKeyValue_skip_none result other resultNext)
            · exact fun outcome member => absurd member List.not_mem_nil
          · have found :
                (nextPacket input decode ⟨is, (decode reader.eth packet).2⟩).1 ≠ .ok none := by
              rw [resultNext]
              exact fun same => null (Outcome.eq_negativeArraySize same)
            rw [Outcome.nullSkipped_cons_iff rfl, ← ih]
            · exact endsQuietly_congr (nextKeyValue_skip result other found)
            · intro _ _ _ same
              exact null (List.cons.inj same).1
      | decodeUnderflow => cases delivered
      | negativeArraySize => cases delivered
      | ioFailure => cases delivered

end Runs

def parseHeader (data : Bytes) : Except JavaException Ipv4Fields :=
  let byte := fun index => (data.getD index 0).toNat
  let short := fun index => 256 * byte index + byte (index + 1)
  if data.length < 20 then .error .bufferUnderflowException
  else
    .ok
      { version := (byte 0 / 16 : Nat)
        ihl := (byte 0 % 16 * 4 : Nat)
        tos := byte 1
        totalLength := short 2
        id := short 4
        flags := (short 6 / 2 ^ 13 : Nat)
        fragmentOffset := (short 6 % 2 ^ 13 : Nat)
        ttl := byte 8
        protocol := byte 9
        headerChecksum := short 10
        source := BitVec.ofNat 32 (65536 * short 12 + short 14)
        destination := BitVec.ofNat 32 (65536 * short 16 + short 18) }

/-- Decoders that make only the call for IPv4, as for a protocol without ports. -/
def decodeEthernet (_ : Unit) (packet : PcapPacket) : Decoding × Unit :=
  if packet.packetData.length < 14 then (⟨[], some .bufferUnderflowException⟩, ())
  else if (packet.packetData.drop 12).take 2 = [8, 0] then
    (⟨[.ip (parseHeader (packet.packetData.drop 14))], none⟩, ())
  else (⟨[], none⟩, ())

def ethernetHeader (etherType : Bytes) : Bytes :=
  List.replicate 6 2 ++ List.replicate 6 4 ++ etherType

def arpRecord : PcapRecord := ⟨1, 2, 14, ethernetHeader [8, 6], by decide⟩

theorem endsQuietly_at_end :
    EndsQuietly captureInputStream decodeEthernet ⟨.fresh [arpRecord.packet], ()⟩ [] := by
  have met : Meets captureInputStream decodeEthernet ⟨.fresh [arpRecord.packet], ()⟩
      [.nonIpv4 { packet := arpRecord.packet }, .ioFailure] :=
    .delivered (.nonIpv4 rfl rfl rfl) rfl (.failed (.ioFailure rfl) rfl)
  apply (endsQuietly_iff met).mpr
  rw [Outcome.nullSkipped_cons_iff rfl (fun _ _ _ same => by cases same)]
  exact Outcome.not_nullSkipped_of_fails rfl []

/-- The second record announces `0xFFFFFFFF` bytes. -/
theorem null_skipped_throws : ∃ stream,
    PcapFSDataInputStream.new documentedKraken
      (.fresh (pcapFile .big (List.replicate 20 0) [arpRecord] ++
        PacketHeader.encode .big ⟨1, 2, 0xFFFFFFFF, 0⟩) fun _ => 1) 56 = .ok stream ∧
    Meets (fsDataInputStream documentedKraken) decodeEthernet ⟨stream, ()⟩
      [.nonIpv4 { packet := arpRecord.packet }, .negativeArraySize] ∧
    ¬ EndsQuietly (fsDataInputStream documentedKraken) decodeEthernet ⟨stream, ()⟩ [] := by
  obtain ⟨stream, opened, reads⟩ := new_pcapFile documentedKraken .big (List.replicate 20 0)
    (arpRecord.encode .big ++ PacketHeader.encode .big ⟨1, 2, 0xFFFFFFFF, 0⟩) rfl
    (fun _ => 1) 56
  obtain ⟨middle, pulled, readsMiddle⟩ := getPacket_of_record documentedKraken reads
  rw [← List.append_nil (PacketHeader.encode _ _)] at readsMiddle
  obtain ⟨after, failed, -⟩ :=
    getPacket_of_negative documentedKraken readsMiddle (by decide)
  have frame : Fetches (fsDataInputStream documentedKraken) decodeEthernet ⟨stream, ()⟩
      (.nonIpv4 { packet := arpRecord.packet }) ⟨middle, ()⟩ := .nonIpv4 pulled rfl rfl
  have null : Fetches (fsDataInputStream documentedKraken) decodeEthernet ⟨middle, ()⟩
      .negativeArraySize ⟨after, ()⟩ := .negativeArraySize failed
  refine ⟨stream, ?_, .delivered frame rfl (.failed null rfl), ?_⟩
  · rw [← opened, pcapFile]
    rfl
  · exact not_endsQuietly_of_threw
      (nextKeyValue_skip_none frame.nextPacket_eq rfl null.nextPacket_eq)

end PacketRecordReader

end Packetpig
