/-
What PacketNgramRecordReader adds to its counters for one frame: the visited
windows of the bytes in which the payload of a selected packet lies.
-/

import Packetpig.Packet.PlacedPayload

namespace Packetpig.PacketNgramRecordReader

open Text

def accepts (filter : PacketFilter) (frame : Frame) : Bool :=
  filter.matchesPacket (NgramFields.decode frame).tcpPacket (NgramFields.decode frame).udpPacket

/-- The payload of a selected packet: that of IP without a filter, else that of
the transport protocol. -/
def placedPayload (filter : PacketFilter) (frame : Frame) : Option PlacedPayload :=
  match frame with
  | .other => none
  | .ipv4 packet =>
      if accepts filter frame then
        if filter.proto = 0 then some packet.placed else packet.transport.placed
      else none

private theorem copyData_some (buffer : Buffer) : copyData (some buffer) = some buffer.bytes := rfl

private theorem copyData_tcp (packet : TcpPacket) :
    copyData packet.data = packet.placed.map PlacedPayload.bytes := by
  rcases packet with ⟨sourcePort, destinationPort, dataLength, data, headerRead⟩
  cases data with
  | none => rfl
  | some buffer => exact congrArg some (buffer.bytes_placed _).symm

private theorem decode_ipData (packet : Ipv4Packet) :
    (NgramFields.decode (.ipv4 packet)).ipData = some packet.placed.bytes := by
  rw [packet.bytes_placed, ← copyData_some]
  cases transport : packet.transport <;> simp only [NgramFields.decode, transport]

private theorem decode_tcpData (filter : PacketFilter) (packet : Ipv4Packet)
    (tcp : filter.proto = InternetProtocol.TCP) (accepted : accepts filter (.ipv4 packet) = true) :
    (NgramFields.decode (.ipv4 packet)).tcpData =
      packet.transport.placed.map PlacedPayload.bytes := by
  unfold accepts PacketFilter.matchesPacket at accepted
  rw [if_neg (by rw [tcp]; decide), if_pos tcp] at accepted
  cases transport : packet.transport with
  | tcp segment => simp only [NgramFields.decode, transport, Transport.placed, copyData_tcp]
  | udp datagram => simp [NgramFields.decode, transport] at accepted
  | other => simp [NgramFields.decode, transport] at accepted

private theorem decode_udpData (filter : PacketFilter) (packet : Ipv4Packet)
    (udp : filter.proto = InternetProtocol.UDP) (accepted : accepts filter (.ipv4 packet) = true) :
    (NgramFields.decode (.ipv4 packet)).udpData =
      packet.transport.placed.map PlacedPayload.bytes := by
  unfold accepts PacketFilter.matchesPacket at accepted
  rw [if_neg (by rw [udp]; decide), if_neg (by rw [udp]; decide), if_pos udp] at accepted
  cases transport : packet.transport with
  | tcp segment => simp [NgramFields.decode, transport] at accepted
  | udp datagram =>
      simp only [NgramFields.decode, transport, Transport.placed, UdpPacket.placed,
        copyData_some, Option.map_some, Buffer.bytes_placed]
  | other => simp [NgramFields.decode, transport] at accepted

private theorem accepts_other (filter : PacketFilter) (frame : Frame)
    (filtered : filter.proto ≠ 0) (tcp : filter.proto ≠ InternetProtocol.TCP)
    (udp : filter.proto ≠ InternetProtocol.UDP) :
    accepts filter frame = false := by
  unfold accepts PacketFilter.matchesPacket
  rw [if_neg filtered, if_neg tcp, if_neg udp]

private theorem countFrame_accepted (filter : PacketFilter) (n : Nat) (cache : NgramCache)
    (packet : Ipv4Packet) (accepted : accepts filter (.ipv4 packet) = true) :
    countFrame filter n cache (.ipv4 packet) =
      cache.updateNgram
        ((if filter.proto = 0 then some packet.placed else packet.transport.placed).map
          PlacedPayload.bytes) n := by
  have counted : filter.matchesPacket (NgramFields.decode (.ipv4 packet)).tcpPacket
      (NgramFields.decode (.ipv4 packet)).udpPacket = true := accepted
  simp only [countFrame, counted, if_true]
  by_cases unfiltered : filter.proto = 0
  · rw [if_neg (by rw [unfiltered]; decide), if_neg (by rw [unfiltered]; decide),
      if_pos unfiltered, Option.map_some, decode_ipData]
  · rw [if_neg unfiltered]
    by_cases tcp : filter.proto = InternetProtocol.TCP
    · rw [if_pos tcp, decode_tcpData filter packet tcp accepted]
    · rw [if_neg tcp]
      by_cases udp : filter.proto = InternetProtocol.UDP
      · rw [if_pos udp, decode_udpData filter packet udp accepted]
      · rw [accepts_other filter _ unfiltered tcp udp] at accepted
        cases accepted

theorem countFrame_eq (filter : PacketFilter) (n : Nat) (cache : NgramCache) (frame : Frame) :
    countFrame filter n cache frame =
      cache.updateNgram ((placedPayload filter frame).map PlacedPayload.bytes) n := by
  cases frame with
  | other =>
      simp only [countFrame, NgramFields.decode, placedPayload, Option.map_none,
        NgramCache.updateNgram, ite_self]
  | ipv4 packet =>
      by_cases accepted : accepts filter (.ipv4 packet) = true
      · rw [countFrame_accepted filter n cache packet accepted, placedPayload, if_pos accepted]
      · have skipped : (placedPayload filter (.ipv4 packet)).map PlacedPayload.bytes = none := by
          rw [placedPayload, if_neg accepted, Option.map_none]
        rw [skipped]
        unfold accepts at accepted
        simp only [countFrame, if_neg accepted, NgramCache.updateNgram]

private theorem count_insert (cache : NgramCache) (buf key : Bytes) :
    NgramCache.count (cache.insert buf (1 + cache.count buf)) key =
      cache.count key + BitVec.ofNat 32 ([buf].count key) := by
  by_cases same : key = buf
  · subst same
    simp [NgramCache.count, BitVec.add_comm]
  · simp [NgramCache.count, AList.lookup_insert_ne same, Ne.symm same]

private theorem count_updateLoop (n : Nat) (data key : Bytes) (fuel i : Nat)
    (enough : data.length - n - i ≤ fuel) (cache : NgramCache) :
    (NgramCache.updateLoop n data fuel i cache).count key =
      cache.count key + BitVec.ofNat 32
        (((List.range' i (data.length - n - i)).map fun j => (data.drop j).take n).count key) := by
  induction fuel generalizing i cache with
  | zero =>
      have nothing : data.length - n - i = 0 := by omega
      simp [NgramCache.updateLoop, nothing]
  | succ fuel ih =>
      by_cases more : i + n < data.length
      · have left : data.length - n - i = data.length - n - (i + 1) + 1 := by omega
        rw [NgramCache.updateLoop, if_pos more, ih (i + 1) (by omega), count_insert, left,
          List.range'_succ, List.map_cons, BitVec.add_assoc, ← BitVec.ofNat_add,
          ← List.count_append, List.singleton_append]
      · have nothing : data.length - n - i = 0 := by omega
        simp [NgramCache.updateLoop, more, nothing]

theorem count_updateNgram (cache : NgramCache) (data : Option Bytes) (n : Nat) (key : Bytes) :
    (cache.updateNgram data n).count key =
      cache.count key +
        BitVec.ofNat 32 ((data.toList.flatMap (visitedWindows n)).count key) := by
  cases data with
  | none => simp [NgramCache.updateNgram]
  | some data =>
      by_cases empty : data = []
      · simp [NgramCache.updateNgram, empty, visitedWindows]
      · rw [NgramCache.updateNgram, if_neg empty, count_updateLoop n data key _ 0 (by omega),
          Nat.sub_zero, ← List.range_eq_range']
        simp [visitedWindows]

end Packetpig.PacketNgramRecordReader
