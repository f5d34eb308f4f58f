/-
What happens on arbitrary bytes: the longest prefix of complete records is
read, and the three readers deliver the rows of its packets.

A length word with its sign bit set ends the reading with an unchecked
exception instead, which `PacketRecordReader` catches and these readers do not;
and the magic number of the file is never checked.
-/

import Packetpig.Packet.DnsRows
import Packetpig.Packet.NgramRows

namespace Packetpig

open Text

def NoRecord (order : ByteOrder) (tail : Bytes) : Prop :=
  ∀ record rest, tail ≠ PcapRecord.encode order record ++ rest

theorem exists_longest_prefix (order : ByteOrder) (body : Bytes) :
    ∃ (records : List PcapRecord) (tail : Bytes),
      body = records.flatMap (PcapRecord.encode order) ++ tail ∧ NoRecord order tail := by
  induction bound : body.length using Nat.strongRecOn generalizing body with
  | ind size ih =>
      by_cases here : ∃ record rest, body = PcapRecord.encode order record ++ rest
      · rcases here with ⟨record, rest, rfl⟩
        rw [List.length_append, record.encode_length] at bound
        obtain ⟨records, tail, same, noRecord⟩ := ih rest.length (by omega) rest rfl
        refine ⟨record :: records, tail, ?_, noRecord⟩
        rw [List.flatMap_cons, List.append_assoc, ← same]
      · exact ⟨[], body, rfl, fun record rest same => here ⟨record, rest, same⟩⟩

section Readers

variable (kraken : KrakenPcap) (decode : PcapPacket → Frame)
  (parseMessage : Bytes → Option DnsMessage) (filter : PacketFilter) (n : Nat)

/-- The stream returns these packets and then throws `IOException`, and each of
the three readers opened on it returns their rows and then false. -/
structure ReadsPackets (stream : PcapFSDataInputStream) (packets : List PcapPacket) : Prop where
  returned : ∃ final, Yields (PcapFSDataInputStream.getPacket kraken) stream packets
    .ioException final
  ngram : ∃ last, Yields
    (PacketNgramRecordReader.nextKeyValue (fsDataInputStream kraken) decode)
    (PacketNgramRecordReader.initializeReader filter n stream)
    ((Radix.keys n).map fun key =>
      ⟨0, PacketNgramRecordReader.row filter n
        ((packets.map decode).foldl (PacketNgramRecordReader.countFrame filter n) ∅) key⟩)
    .returnedFalse last
  dns : ∃ last, Yields
    (DnsPacketRecordReader.nextKeyValue (fsDataInputStream kraken) decode parseMessage)
    (DnsReader.initializeReader stream)
    (packets.flatMap (packetRows DnsPacketRecordReader.messageRows decode parseMessage))
    .returnedFalse last
  dnsAll : ∃ last, Yields
    (DnsPacketAllRecordReader.nextKeyValue (fsDataInputStream kraken) decode parseMessage)
    (DnsReader.initializeReader stream)
    (packets.flatMap (packetRows DnsPacketAllRecordReader.messageRows decode parseMessage))
    .returnedFalse last

/-- After any number of complete records there is no header with the sign bit of
its length word set, and no message without rows comes before one with rows. -/
structure Harmless (order : ByteOrder) (body : Bytes) : Prop where
  nonneg : ∀ (records : List PcapRecord) (header : PacketHeader) (rest : Bytes),
    body = records.flatMap (PcapRecord.encode order) ++ (header.encode order ++ rest) →
      0 ≤ header.inclLen.toInt
  rowsFirst : ∀ (records : List PcapRecord) (tail : Bytes),
    body = records.flatMap (PcapRecord.encode order) ++ tail →
      DnsReader.RowsFirst decode parseMessage (records.map PcapRecord.packet)

variable {kraken decode parseMessage filter n}

private theorem harmless_of_readsPackets {order : ByteOrder} {body : Bytes}
    {stream : PcapFSDataInputStream} (reads : Reads order body stream)
    {packets : List PcapPacket}
    (complete : ReadsPackets kraken decode parseMessage filter n stream packets) :
    Harmless decode parseMessage order body := by
  obtain ⟨final, run⟩ := complete.returned
  constructor
  · intro records header rest equal
    subst equal
    by_contra negative
    obtain ⟨after, moved, readsAfter⟩ := advances_records kraken order records reads
    obtain ⟨thrown, pulled, -⟩ :=
      getPacket_of_negative kraken readsAfter (by omega)
    have reasons := (run.unique (moved.yields (.stop pulled))).2.1
    cases reasons
  · intro records tail equal
    subst equal
    obtain ⟨after, moved, -⟩ := advances_records kraken order records reads
    obtain ⟨more, reason, last, later⟩ := (fsDataInputStream kraken).source.exists_yields after
    obtain ⟨rfl, -⟩ := run.unique (moved.yields later)
    have rowsFirst := (DnsReader.yields_all_iff decode parseMessage (fsDataInputStream kraken)
      DnsPacketRecordReader.columns_lawful run).mp complete.dns
    intro before packet behind same rowless later member
    refine rowsFirst before packet (behind ++ more) ?_ rowless later
      (List.mem_append_left _ member)
    rw [same, List.append_assoc, List.cons_append]

private theorem readsPackets_of_harmless (positive : 0 < n) {order : ByteOrder}
    {records : List PcapRecord} {tail : Bytes} {stream : PcapFSDataInputStream}
    (reads : Reads order (records.flatMap (PcapRecord.encode order) ++ tail) stream)
    (noRecord : NoRecord order tail)
    (harmless : Harmless decode parseMessage order
      (records.flatMap (PcapRecord.encode order) ++ tail)) :
    ReadsPackets kraken decode parseMessage filter n stream
      (records.map PcapRecord.packet) := by
  have run : ∃ final, Yields (PcapFSDataInputStream.getPacket kraken) stream
      (records.map PcapRecord.packet) .ioException final := by
    obtain ⟨after, moved, readsAfter⟩ := advances_records kraken order records reads
    rcases getPacket_cases kraken readsAfter with
      ⟨record, rest, _, same, -⟩ | ⟨header, rest, _, same, negative, -⟩ | ⟨final, -, -, pulled⟩
    · exact absurd same (noRecord record rest)
    · have nonneg := harmless.nonneg records header rest (by rw [same])
      omega
    · have ends := moved.yields (.stop pulled)
      rw [List.append_nil] at ends
      exact ⟨final, ends⟩
  rcases run with ⟨final, delivers⟩
  have rowsFirst := harmless.rowsFirst records tail rfl
  exact
    { returned := ⟨final, delivers⟩
      ngram := PacketNgramRecordReader.yields_rows (fsDataInputStream kraken) decode filter n
        positive delivers
      dns := (DnsReader.yields_all_iff decode parseMessage (fsDataInputStream kraken)
        DnsPacketRecordReader.columns_lawful delivers).mpr rowsFirst
      dnsAll := (DnsReader.yields_all_iff decode parseMessage (fsDataInputStream kraken)
        DnsPacketAllRecordReader.columns_lawful delivers).mpr rowsFirst }

end Readers

def HasMagic (content : Bytes) : Prop :=
  ∃ (order : ByteOrder) (rest : Bytes), content = order.encode nativeMagic ++ rest

/-- Opening the content is refused because of its global header, or everything
that is read from it is the longest prefix of complete records. -/
def ReadToEnd (kraken : KrakenPcap) (decode : PcapPacket → Frame)
    (parseMessage : Bytes → Option DnsMessage) (filter : PacketFilter) (n : Nat)
    (grant : Nat → Nat) (length : Int) (content : Bytes) : Prop :=
  (PcapFSDataInputStream.new kraken (.fresh content grant) length = .error .ioException ∧
    (content.length < 24 ∨ ¬ HasMagic content)) ∨
  ∃ order fields records tail stream, content = pcapFile order fields records ++ tail ∧
    fields.length = 20 ∧ NoRecord order tail ∧
    PcapFSDataInputStream.new kraken (.fresh content grant) length = .ok stream ∧
    ReadsPackets kraken decode parseMessage filter n stream (records.map PcapRecord.packet)

private theorem exists_new (kraken : KrakenPcap) (content : Bytes) (enough : 24 ≤ content.length)
    (grant : Nat → Nat) (length : Int) :
    ∃ stream, PcapFSDataInputStream.new kraken (.fresh content grant) length = .ok stream := by
  have whole : content =
      content.take 4 ++ (content.drop 4).take 20 ++ (content.drop 4).drop 20 := by
    rw [List.append_assoc, List.take_append_drop, List.take_append_drop]
  have four : (content.take 4).length = 4 := by
    rw [List.length_take]
    omega
  have twenty : ((content.drop 4).take 20).length = 20 := by
    rw [List.length_take, List.length_drop]
    omega
  obtain ⟨magic, none, spelled⟩ :=
    ByteOrder.exists_encode .big (content.take 4) (by omega)
  obtain ⟨raw, magicAt, -⟩ := ByteOrder.getInt_encode .big documentedKraken magic none
  have nothing : none = [] := by
    have sizes := congrArg List.length spelled
    rw [four, List.length_append, ByteOrder.encode_length] at sizes
    exact List.length_eq_zero_iff.mp (by omega)
  rw [← spelled, nothing] at magicAt
  obtain ⟨order, agrees⟩ : ∃ order : ByteOrder, raw = swappedMagic ↔ order = .little := by
    by_cases swapped : raw = swappedMagic
    · exact ⟨.little, iff_of_true swapped rfl⟩
    · exact ⟨.big, iff_of_false swapped (by decide)⟩
  obtain ⟨stream, opened, -⟩ := new_of_header kraken _ _ ((content.drop 4).drop 20) four twenty
    grant length raw magicAt order agrees
  rw [← whole] at opened
  exact ⟨stream, opened⟩

/-- Content is read to its end in order exactly when it is too short for a
global header, or has one of the two magic numbers and a harmless body. -/
theorem readToEnd_iff (kraken : KrakenPcap) (decode : PcapPacket → Frame)
    (parseMessage : Bytes → Option DnsMessage) (filter : PacketFilter) (n : Nat)
    (positive : 0 < n) (grant : Nat → Nat) (length : Int) (content : Bytes) :
    ReadToEnd kraken decode parseMessage filter n grant length content ↔
      content.length < 24 ∨
        ∃ order fields body, content = order.encode nativeMagic ++ fields ++ body ∧
          fields.length = 20 ∧ Harmless decode parseMessage order body := by
  constructor
  · rintro (⟨refused, reason⟩ |
      ⟨order, fields, records, tail, stream, rfl, twenty, noRecord, opened, complete⟩)
    · refine .inl ?_
      by_contra enough
      obtain ⟨stream, opened⟩ := exists_new kraken content (by omega) grant length
      rw [refused] at opened
      cases opened
    · refine .inr ⟨order, fields, records.flatMap (PcapRecord.encode order) ++ tail, ?_, twenty, ?_⟩
      · rw [pcapFile, List.append_assoc]
      · obtain ⟨stream', opened', reads⟩ := new_pcapFile kraken order fields
          (records.flatMap (PcapRecord.encode order) ++ tail) twenty grant length
        rw [← List.append_assoc] at opened'
        change PcapFSDataInputStream.new kraken
          (.fresh (pcapFile order fields records ++ tail) grant) length = _ at opened'
        rw [opened] at opened'
        cases opened'
        exact harmless_of_readsPackets reads complete
  · intro either
    rcases either with short | ⟨order, fields, body, rfl, twenty, harmless⟩
    · exact .inl ⟨new_of_short kraken content short grant length, .inl short⟩
    · obtain ⟨records, tail, rfl, noRecord⟩ := exists_longest_prefix order body
      obtain ⟨stream, opened, reads⟩ := new_pcapFile kraken order fields _ twenty grant length
      refine .inr ⟨order, fields, records, tail, stream, ?_, twenty, noRecord, opened,
        readsPackets_of_harmless positive reads noRecord harmless⟩
      rw [pcapFile, ← List.append_assoc]

theorem readToEnd_cut_off :
    ReadToEnd documentedKraken (fun _ => .other) (fun _ => none) ⟨0, 0, []⟩ 1 (fun _ => 1) 27
      (ByteOrder.big.encode nativeMagic ++ List.replicate 20 0 ++ [1, 2, 3]) := by
  refine (readToEnd_iff documentedKraken (fun _ => .other) (fun _ => none) ⟨0, 0, []⟩ 1
    (by omega) (fun _ => 1) 27 _).mpr
    (.inr ⟨.big, List.replicate 20 0, [1, 2, 3], rfl, rfl, ?_, ?_⟩)
  · intro records header rest same
    have sizes := congrArg List.length same
    simp only [List.length_append, PacketHeader.encode_length, List.length_cons,
      List.length_nil] at sizes
    omega
  · intro records tail _ before packet after _ given
    rcases given with ⟨ip, message, found, -⟩
    cases found

/-- A record header whose length word is `0xFFFFFFFF` makes `getPacket` throw
`NegativeArraySizeException`. -/
theorem negative_length_escapes :
    ¬ ReadToEnd documentedKraken (fun _ => .other) (fun _ => none) ⟨0, 0, []⟩ 1 (fun _ => 1) 40
      (ByteOrder.big.encode nativeMagic ++ List.replicate 20 0 ++
        PacketHeader.encode .big ⟨0, 0, 0xFFFFFFFF, 0⟩) := by
  obtain ⟨stream, opened, reads⟩ := new_pcapFile documentedKraken .big (List.replicate 20 0)
    (PacketHeader.encode .big ⟨0, 0, 0xFFFFFFFF, 0⟩) rfl (fun _ => 1) 40
  intro either
  rcases either with ⟨refused, -⟩ | ⟨_, _, _, _, stream', -, -, -, opened', complete⟩
  · rw [refused] at opened
    cases opened
  · rw [opened] at opened'
    cases opened'
    rw [← List.append_nil (PacketHeader.encode _ _)] at reads
    obtain ⟨_, pulled, -⟩ :=
      getPacket_of_negative documentedKraken reads (by decide)
    obtain ⟨_, run⟩ := complete.returned
    have reasons := (run.unique (.stop pulled)).2.1
    cases reasons

end Packetpig
