/-
What one frame that cannot be decoded does to the rows of the other packets.

The callback for TCP swallows the underflow of its own parse; one that leaves
the decoders closes the stream.
-/

import Packetpig.Packet.PacketRows

namespace Packetpig

open Text

namespace PacketRecordReader

variable {σ δ : Type} (decode : δ → PcapPacket → Decoding × δ)

def decoderAfter (eth : δ) (packets : List PcapPacket) : δ :=
  packets.foldl (fun eth packet => (decode eth packet).2) eth

/-- The exception of the first packet that cannot be decoded. -/
def firstFailure : δ → List PcapPacket → Option JavaException
  | _, [] => none
  | eth, packet :: packets =>
      match runDecoding packet (decode eth packet).1 with
      | .error exception => some exception
      | .ok _ => firstFailure (decode eth packet).2 packets

def deliveredRows : δ → List PcapPacket → List (Keyed (List PacketValue))
  | _, [] => []
  | eth, packet :: packets =>
      match runDecoding packet (decode eth packet).1 with
      | .error _ => []
      | .ok packetTuple =>
          if packetTuple.isIpv4 then
            row packetTuple :: deliveredRows (decode eth packet).2 packets
          else deliveredRows (decode eth packet).2 packets

section Cons

variable {decode} {eth : δ} {packet : PcapPacket} (packets : List PcapPacket)

theorem firstFailure_cons_error {exception : JavaException}
    (thrown : runDecoding packet (decode eth packet).1 = .error exception) :
    firstFailure decode eth (packet :: packets) = some exception := by
  simp only [firstFailure, thrown]

theorem firstFailure_cons_ok {packetTuple : PacketTuple}
    (decoded : runDecoding packet (decode eth packet).1 = .ok packetTuple) :
    firstFailure decode eth (packet :: packets) =
      firstFailure decode (decode eth packet).2 packets := by
  simp only [firstFailure, decoded]

theorem deliveredRows_cons_error {exception : JavaException}
    (thrown : runDecoding packet (decode eth packet).1 = .error exception) :
    deliveredRows decode eth (packet :: packets) = [] := by
  simp only [deliveredRows, thrown]

theorem deliveredRows_cons_ok {packetTuple : PacketTuple}
    (decoded : runDecoding packet (decode eth packet).1 = .ok packetTuple) :
    deliveredRows decode eth (packet :: packets) =
      if packetTuple.isIpv4 then
        row packetTuple :: deliveredRows decode (decode eth packet).2 packets
      else deliveredRows decode (decode eth packet).2 packets := by
  simp only [deliveredRows, decoded]

end Cons

theorem deliveredRows_append (eth : δ) (before behind : List PcapPacket) :
    deliveredRows decode eth (before ++ behind) =
      deliveredRows decode eth before ++
        if firstFailure decode eth before = none then
          deliveredRows decode (decoderAfter decode eth before) behind
        else [] := by
  induction before generalizing eth with
  | nil => rfl
  | cons packet before ih =>
      rw [List.cons_append]
      cases decoded : runDecoding packet (decode eth packet).1 with
      | error exception =>
          rw [deliveredRows_cons_error _ decoded, deliveredRows_cons_error _ decoded,
            firstFailure_cons_error _ decoded]
          rfl
      | ok packetTuple =>
          rw [deliveredRows_cons_ok _ decoded, deliveredRows_cons_ok _ decoded,
            firstFailure_cons_ok _ decoded, ih]
          by_cases ipv4 : packetTuple.isIpv4
          · rw [if_pos ipv4, if_pos ipv4]
            rfl
          · rw [if_neg ipv4, if_neg ipv4]
            rfl

theorem firstFailure_append (eth : δ) (before behind : List PcapPacket)
    (complete : firstFailure decode eth before = none) :
    firstFailure decode eth (before ++ behind) =
      firstFailure decode (decoderAfter decode eth before) behind := by
  induction before generalizing eth with
  | nil => rfl
  | cons packet before ih =>
      rw [List.cons_append]
      cases decoded : runDecoding packet (decode eth packet).1 with
      | error exception =>
          rw [firstFailure_cons_error _ decoded] at complete
          cases complete
      | ok packetTuple =>
          rw [firstFailure_cons_ok _ decoded] at complete ⊢
          exact ih (decode eth packet).2 complete

variable {decode} {input : PcapInputStream σ}

private theorem yields_of_fetched {reader middle : PacketRecordReader σ δ}
    {packetTuple : PacketTuple}
    (fetched : nextPacket input decode reader = (.ok (some packetTuple), middle))
    {rows : List (Keyed (List PacketValue))} {ending : Ending} {last : PacketRecordReader σ δ}
    (run : Yields (nextKeyValue input decode) middle rows ending last) :
    ∃ ending' last', Yields (nextKeyValue input decode) reader
        (if packetTuple.isIpv4 then row packetTuple :: rows else rows) ending' last' ∧
      ((nextPacket input decode middle).1 ≠ .ok none → ending' = ending ∧ last' = last) := by
  cases ipv4 : packetTuple.isIpv4 with
  | true =>
      refine ⟨ending, last, ?_, fun _ => ⟨rfl, rfl⟩⟩
      exact .item (nextKeyValue_ipv4 fetched ipv4) run
  | false =>
      rcases again : nextPacket input decode middle with ⟨result, after⟩
      by_cases missing : result = .ok none
      · subst missing
        have nothing : rows = [] :=
          (run.unique (.stop (nextKeyValue_none again))).1
        subst nothing
        refine ⟨_, _, .stop (nextKeyValue_skip_none fetched ipv4 again), ?_⟩
        exact fun found => absurd rfl found
      · have same := nextKeyValue_skip fetched ipv4 (by rw [again]; exact missing)
        exact ⟨ending, last, run.congr_state same, fun _ => ⟨rfl, rfl⟩⟩

private theorem nextPacket_of_item (decode : δ → PcapPacket → Decoding × δ) (eth : δ)
    {is after : σ} {packet : PcapPacket} (pulled : input.getPacket is = .item packet after) :
    nextPacket input decode ⟨is, eth⟩ =
      ((runDecoding packet (decode eth packet).1).map some, ⟨after, (decode eth packet).2⟩) := by
  simp only [nextPacket, pulled]

private theorem exists_ending_of_stop (decode : δ → PcapPacket → Decoding × δ) (eth : δ)
    {is after : σ} {exception : JavaException}
    (pulled : input.getPacket is = .stop exception after) :
    ∃ ending last, Yields (nextKeyValue input decode) ⟨is, eth⟩ [] ending last := by
  by_cases null : exception = .negativeArraySizeException
  · subst null
    have fetched : nextPacket input decode ⟨is, eth⟩ = (.ok none, ⟨after, eth⟩) := by
      simp only [nextPacket, pulled]
    exact ⟨_, _, .stop (nextKeyValue_none fetched)⟩
  · have fetched : nextPacket input decode ⟨is, eth⟩ = (.error exception, ⟨after, eth⟩) := by
      simp only [nextPacket, pulled]
    have call := nextKeyValue_error fetched
    by_cases caught : ignored exception = true
    · rw [catchException_ignored caught] at call
      exact ⟨_, _, .stop call⟩
    · rw [catchException, if_neg caught] at call
      exact ⟨_, _, .stop call⟩

/-- The reader delivers the rows of the IPv4 packets in front of the first
packet that cannot be decoded, and closes the stream there. -/
theorem yields_deliveredRows (decode : δ → PcapPacket → Decoding × δ) (eth : δ)
    {is final : σ} {packets : List PcapPacket} {exception : JavaException}
    (delivers : input.Delivers is packets exception final) :
    ∃ ending last, Yields (nextKeyValue input decode) ⟨is, eth⟩
        (deliveredRows decode eth packets) ending last ∧
      ∀ failure, firstFailure decode eth packets = some failure → ignored failure = true →
        ending = .returnedFalse ∧ input.Closed last.is := by
  induction delivers generalizing eth with
  | stop pulled =>
      obtain ⟨ending, last, run⟩ := exists_ending_of_stop decode eth pulled
      exact ⟨ending, last, run, fun failure found => by cases found⟩
  | @item is after final packet packets exception pulled rest ih =>
      have fetched := nextPacket_of_item decode eth pulled
      cases decoded : runDecoding packet (decode eth packet).1 with
      | error thrown =>
          rw [decoded] at fetched
          rw [deliveredRows_cons_error _ decoded, firstFailure_cons_error _ decoded]
          have call := nextKeyValue_error fetched
          by_cases caught : ignored thrown = true
          · rw [catchException_ignored caught] at call
            exact ⟨_, _, .stop call, fun _ _ _ => ⟨rfl, input.close_closed _⟩⟩
          · rw [catchException, if_neg caught] at call
            refine ⟨_, _, .stop call, fun failure same caught' => ?_⟩
            cases same
            exact absurd caught' caught
      | ok packetTuple =>
          rw [decoded] at fetched
          rw [deliveredRows_cons_ok _ decoded, firstFailure_cons_ok _ decoded]
          obtain ⟨ending, last, run, closes⟩ := ih (decode eth packet).2
          obtain ⟨ending', last', run', same⟩ := yields_of_fetched fetched run
          refine ⟨ending', last', run', fun failure failed caught => ?_⟩
          have found : (nextPacket input decode ⟨after, (decode eth packet).2⟩).1 ≠ .ok none := by
            cases rest with
            | stop _ => cases failed
            | item pulled' _ =>
                rw [nextPacket_of_item decode _ pulled']
                cases runDecoding _ _ <;> exact fun missing => by cases missing
          obtain ⟨rfl, rfl⟩ := same found
          exact closes failure failed caught

/-- Readers opened on the two streams return the same rows. -/
def SameRows (input : PcapInputStream σ) (decode : δ → PcapPacket → Decoding × δ) (eth : δ)
    (is is' : σ) : Prop :=
  ∀ rows,
    (∃ ending last, Yields (nextKeyValue input decode) ⟨is, eth⟩ rows ending last) ↔
      ∃ ending last, Yields (nextKeyValue input decode) ⟨is', eth⟩ rows ending last

private theorem sameRows_iff {eth : δ} {is is' : σ} {rows rows' : List (Keyed (List PacketValue))}
    {ending ending' : Ending} {last last' : PacketRecordReader σ δ}
    (run : Yields (nextKeyValue input decode) ⟨is, eth⟩ rows ending last)
    (run' : Yields (nextKeyValue input decode) ⟨is', eth⟩ rows' ending' last') :
    SameRows input decode eth is is' ↔ rows = rows' := by
  constructor
  · intro same
    obtain ⟨_, _, run''⟩ := (same rows).mp ⟨ending, last, run⟩
    exact (run''.unique run').1
  · intro equal others
    subst equal
    constructor
    · intro found
      rcases found with ⟨_, _, other⟩
      rw [(other.unique run).1]
      exact ⟨ending', last', run'⟩
    · intro found
      rcases found with ⟨_, _, other⟩
      rw [(other.unique run').1]
      exact ⟨ending, last, run⟩

/-- A frame that cannot be decoded ends the reading where it stands: what is
lost are the rows of the packets behind it. -/
theorem inserted_frame_ends (eth : δ) {is is' final final' : σ}
    {before behind : List PcapPacket} {frame : PcapPacket} {exception exception' : JavaException}
    (original : input.Delivers is (before ++ behind) exception final)
    (inserted : input.Delivers is' (before ++ frame :: behind) exception' final')
    (short : runDecoding frame (decode (decoderAfter decode eth before) frame).1 =
      .error .bufferUnderflowException) :
    ∃ lost,
      (∃ ending last, Yields (nextKeyValue input decode) ⟨is, eth⟩
        (deliveredRows decode eth before ++ lost) ending last) ∧
      (∃ ending last, Yields (nextKeyValue input decode) ⟨is', eth⟩
          (deliveredRows decode eth before) ending last ∧
        (firstFailure decode eth before = none →
          ending = .returnedFalse ∧ input.Closed last.is)) ∧
      lost = (if firstFailure decode eth before = none then
          deliveredRows decode (decoderAfter decode eth before) behind
        else []) ∧
      (SameRows input decode eth is is' ↔ lost = []) := by
  obtain ⟨ending, last, run, -⟩ := yields_deliveredRows decode eth original
  obtain ⟨ending', last', run', closes⟩ := yields_deliveredRows decode eth inserted
  rw [deliveredRows_append] at run run'
  rw [deliveredRows_cons_error _ short, ite_self, List.append_nil] at run'
  refine ⟨_, ⟨ending, last, run⟩, ⟨ending', last', run', fun complete => ?_⟩, rfl, ?_⟩
  · refine closes .bufferUnderflowException ?_ rfl
    rw [firstFailure_append decode eth before _ complete, firstFailure_cons_error _ short]
  · rw [sameRows_iff run run', List.append_right_eq_self]

def shortRecord : PcapRecord := ⟨5, 0, 14, ethernetHeader [8, 0], by decide⟩

def icmpRecord : PcapRecord :=
  ⟨6, 0, 34, ethernetHeader [8, 0] ++
    [69, 0, 0, 20, 0, 7, 0, 0, 64, 1, 0, 0, 10, 0, 0, 1, 10, 0, 0, 2], by decide⟩

theorem inserted_frame_ends_single : ∃ lost,
    (∃ ending last, Yields (nextKeyValue captureInputStream decodeEthernet)
      ⟨.fresh [icmpRecord.packet], ()⟩ (deliveredRows decodeEthernet () [] ++ lost) ending last) ∧
    (∃ ending last, Yields (nextKeyValue captureInputStream decodeEthernet)
        ⟨.fresh [shortRecord.packet, icmpRecord.packet], ()⟩ (deliveredRows decodeEthernet () [])
        ending last ∧
      (firstFailure decodeEthernet () [] = none →
        ending = .returnedFalse ∧ captureInputStream.Closed last.is)) ∧
    lost = (if firstFailure decodeEthernet () [] = none then
        deliveredRows decodeEthernet (decoderAfter decodeEthernet () []) [icmpRecord.packet]
      else []) ∧
    (SameRows captureInputStream decodeEthernet () (.fresh [icmpRecord.packet])
      (.fresh [shortRecord.packet, icmpRecord.packet]) ↔ lost = []) :=
  inserted_frame_ends () (captureInputStream_delivers ([] ++ [icmpRecord.packet]))
    (captureInputStream_delivers [shortRecord.packet, icmpRecord.packet]) rfl

theorem packet_behind_short_frame_lost :
    ¬ SameRows captureInputStream decodeEthernet () (.fresh [icmpRecord.packet])
      (.fresh [shortRecord.packet, icmpRecord.packet]) := by
  have original := captureInputStream_delivers [icmpRecord.packet]
  have inserted := captureInputStream_delivers [shortRecord.packet, icmpRecord.packet]
  obtain ⟨ending, last, run, -⟩ := yields_deliveredRows decodeEthernet () original
  obtain ⟨ending', last', run', -⟩ := yields_deliveredRows decodeEthernet () inserted
  rw [sameRows_iff run run']
  intro same
  cases same

end PacketRecordReader

end Packetpig
