/-
PacketRecordReader: one row for each IPv4 packet of a capture, with the fields
that the decoder callbacks leave in a PacketTuple.

The kraken decoders are a parameter: they report the callbacks that the
decoding of a packet makes, each with the outcome of the parse in front of it,
and the exception that leaves them, if any. They may keep a state between
packets, as the reassembly of fragments does.
-/

import Packetpig.Pcap.PcapInputStream

namespace Packetpig

open Text

structure Ipv4Fields where
  version : Int
  ihl : Int
  tos : Int
  totalLength : Int
  id : Int
  flags : Int
  fragmentOffset : Int
  ttl : Int
  protocol : Int
  headerChecksum : Int
  source : Word
  destination : Word
deriving DecidableEq, Repr

structure TcpFields where
  sourcePort : Int
  destinationPort : Int
  seq : Int
  ack : Int
  dataOffset : Int
  flags : Word
  window : Int
  dataLength : Int
  data : Option Bytes
deriving DecidableEq, Repr

structure UdpFields where
  sourcePort : Int
  destinationPort : Int
  length : Int
  checksum : Int
deriving DecidableEq, Repr

/-- `isIpv4` stands for `packetType == Ipv4Packet.class`. -/
structure PacketTuple where
  isIpv4 : Bool := false
  packet : PcapPacket
  version : Int := 0
  headerLength : Int := 0
  tos : Int := 0
  totalLen : Int := 0
  id : Int := 0
  flags : Int := 0
  fragOffset : Int := 0
  ttl : Int := 0
  proto : Int := 0
  headerChecksum : Int := 0
  src : Option Bytes := none
  dst : Option Bytes := none
  sport : Int := 0
  dport : Int := 0
  seqId : Int := 0
  ackId : Int := 0
  offset : Int := 0
  ns : Int := 0
  cwr : Int := 0
  ece : Int := 0
  urg : Int := 0
  psh : Int := 0
  rst : Int := 0
  syn : Int := 0
  fin : Int := 0
  window : Int := 0
  tcpSize : Int := 0
  ack : Int := 0
  udpSport : Int := 0
  udpDport : Int := 0
  udpLength : Int := 0
  udpChecksum : Int := 0
  tcpData : Option Bytes := none
deriving DecidableEq, Repr

/-- An entry of the row: a number, or a string that may be `null`. -/
inductive PacketValue where
  | number (value : Int)
  | text (value : Option Bytes)
deriving DecidableEq, Repr

namespace PacketTuple

def ipToString (addr : Word) : Bytes :=
  [46].intercalate
    [decimal (addr.toNat / 2 ^ 24 % 256), decimal (addr.toNat / 2 ^ 16 % 256),
      decimal (addr.toNat / 2 ^ 8 % 256), decimal (addr.toNat % 256)]

def setIpv4PacketFields (tuple : PacketTuple) (p : Ipv4Fields) : PacketTuple :=
  { tuple with
    version := p.version
    headerLength := p.ihl
    tos := p.tos
    totalLen := p.totalLength
    id := p.id
    flags := p.flags
    fragOffset := p.fragmentOffset
    ttl := p.ttl
    proto := p.protocol
    headerChecksum := p.headerChecksum
    src := some (ipToString p.source)
    dst := some (ipToString p.destination)
    isIpv4 := true }

/-- `(f & mask) == 0 ? 0 : 1`. -/
def flag (f mask : Word) : Int := if f &&& mask = 0 then 0 else 1

/-- The fields stay set if the copy of the data throws: the array is allocated
with the announced length, and `gets` wants that many bytes. -/
def setTcpFields (tuple : PacketTuple) (p : TcpFields) : PacketTuple × Option JavaException :=
  let tuple : PacketTuple :=
    { tuple with
      sport := p.sourcePort
      dport := p.destinationPort
      seqId := p.seq
      ackId := p.ack
      offset := p.dataOffset
      ns := flag p.flags 256
      cwr := flag p.flags 128
      ece := flag p.flags 64
      urg := flag p.flags 32
      ack := flag p.flags 16
      psh := flag p.flags 8
      rst := flag p.flags 4
      syn := flag p.flags 2
      fin := flag p.flags 1
      window := p.window
      tcpSize := p.dataLength }
  match p.data with
  | none => ({ tuple with tcpData := none }, none)
  | some data =>
      if p.dataLength < 0 then (tuple, some .negativeArraySizeException)
      else if (data.length : Int) < p.dataLength then (tuple, some .bufferUnderflowException)
      else ({ tuple with tcpData := some (data.take p.dataLength.toNat) }, none)

def setUdpFields (tuple : PacketTuple) (p : UdpFields) : PacketTuple :=
  { tuple with
    udpSport := p.sourcePort
    udpDport := p.destinationPort
    udpLength := p.length
    udpChecksum := p.checksum }

def getValue (tuple : PacketTuple) : List PacketValue :=
  [.number tuple.version, .number tuple.headerLength, .number tuple.tos, .number tuple.totalLen,
    .number tuple.id, .number tuple.flags, .number tuple.fragOffset, .number tuple.ttl,
    .number tuple.proto, .number tuple.headerChecksum, .text tuple.src, .text tuple.dst,
    .number tuple.sport, .number tuple.dport, .number tuple.seqId, .number tuple.ackId,
    .number tuple.offset, .number tuple.ns, .number tuple.cwr, .number tuple.ece,
    .number tuple.urg, .number tuple.ack, .number tuple.psh, .number tuple.rst,
    .number tuple.syn, .number tuple.fin, .number tuple.window, .number tuple.tcpSize,
    .number tuple.udpSport, .number tuple.udpDport, .number tuple.udpLength,
    .number tuple.udpChecksum, .text tuple.tcpData]

end PacketTuple

/-- A call of one of the registered callbacks; the callbacks for IPv4 and TCP
parse their packet themselves. -/
inductive DecoderCall where
  | ip (parsed : Except JavaException Ipv4Fields)
  | tcp (parsed : Except JavaException TcpFields)
  | udp (p : UdpFields)

/-- The calls that `eth.decode` makes for one packet, and what it throws after
them. -/
structure Decoding where
  calls : List DecoderCall
  thrown : Option JavaException

namespace PacketRecordReader

/-- The callback `process` of the TCP decoder, which swallows an underflow. -/
def processTcp (tuple : PacketTuple) (parsed : Except JavaException TcpFields) :
    Except JavaException PacketTuple :=
  match parsed with
  | .error .bufferUnderflowException => .ok tuple
  | .error exception => .error exception
  | .ok p =>
      match tuple.setTcpFields p with
      | (tuple, none) => .ok tuple
      | (tuple, some .bufferUnderflowException) => .ok tuple
      | (_, some exception) => .error exception

def processCall (tuple : PacketTuple) : DecoderCall → Except JavaException PacketTuple
  | .ip parsed => parsed.map tuple.setIpv4PacketFields
  | .tcp parsed => processTcp tuple parsed
  | .udp p => .ok (tuple.setUdpFields p)

/-- `eth.decode(packet)` with the tuple of the reader filled in. -/
def runDecoding (packet : PcapPacket) (decoding : Decoding) : Except JavaException PacketTuple := do
  let tuple ← decoding.calls.foldlM processCall { packet }
  match decoding.thrown with
  | none => .ok tuple
  | some exception => .error exception

end PacketRecordReader

structure PacketRecordReader (σ δ : Type) where
  is : σ
  eth : δ

namespace PacketRecordReader

variable {σ δ : Type}

/-- `null` where `getPacket` throws NegativeArraySizeException. -/
def nextPacket (input : PcapInputStream σ) (decode : δ → PcapPacket → Decoding × δ)
    (reader : PacketRecordReader σ δ) :
    Except JavaException (Option PacketTuple) × PacketRecordReader σ δ :=
  match input.getPacket reader.is with
  | .stop .negativeArraySizeException is => (.ok none, { reader with is })
  | .stop exception is => (.error exception, { reader with is })
  | .item packet is =>
      let (decoding, eth) := decode reader.eth packet
      ((runDecoding packet decoding).map some, { is, eth })

/-- `while (packetTuple.packetType != Ipv4Packet.class)`; a `null` from
`nextPacket` is dereferenced in the condition. -/
def skip (input : PcapInputStream σ) (decode : δ → PcapPacket → Decoding × δ) :
    Nat → PacketTuple → PacketRecordReader σ δ →
      Except JavaException PacketTuple × PacketRecordReader σ δ
  | 0, _, reader => (.error .ioException, reader)
  | fuel + 1, packetTuple, reader =>
      if packetTuple.isIpv4 then (.ok packetTuple, reader)
      else
        match nextPacket input decode reader with
        | (.error exception, reader) => (.error exception, reader)
        | (.ok none, reader) => (.error .nullPointerException, reader)
        | (.ok (some packetTuple), reader) => skip input decode fuel packetTuple reader

/-- The exceptions of the three `catch` clauses. -/
def ignored (exception : JavaException) : Bool :=
  exception = .bufferUnderflowException ∨ exception = .negativeArraySizeException ∨
    exception = .ioException

def row (packetTuple : PacketTuple) : Keyed (List PacketValue) :=
  ⟨packetKey packetTuple.packet, packetTuple.getValue⟩

def catchException (input : PcapInputStream σ) (exception : JavaException)
    (reader : PacketRecordReader σ δ) :
    Pull (PacketRecordReader σ δ) (Keyed (List PacketValue)) Ending :=
  if ignored exception then .stop .returnedFalse { reader with is := input.close reader.is }
  else .stop (.threw exception) reader

def nextKeyValue (input : PcapInputStream σ) (decode : δ → PcapPacket → Decoding × δ)
    (reader : PacketRecordReader σ δ) :
    Pull (PacketRecordReader σ δ) (Keyed (List PacketValue)) Ending :=
  match nextPacket input decode reader with
  | (.error exception, reader) => catchException input exception reader
  | (.ok none, reader) => .stop .returnedFalse { reader with is := input.close reader.is }
  | (.ok (some packetTuple), reader) =>
      match skip input decode (input.remaining reader.is + 1) packetTuple reader with
      | (.ok packetTuple, reader) => .item (row packetTuple) reader
      | (.error exception, reader) => catchException input exception reader

end PacketRecordReader

end Packetpig
