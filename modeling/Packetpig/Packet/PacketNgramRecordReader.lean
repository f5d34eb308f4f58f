/-
PacketNgramRecordReader: the first call reads the whole capture and counts the
n-grams of the data of every selected packet in a hash map of 32 bit counters;
the calls then enumerate all n-byte keys with an odometer, one row a key.
-/

import Packetpig.Library.Radix
import Packetpig.Packet.PacketFilter
import Packetpig.Pcap.PcapInputStream

namespace Packetpig

open Text

abbrev NgramCache := AList fun _ : Bytes => Word

/-- The loops of `copyData` run through whole arrays, so that they take the
bytes in front of the position along. -/
def copyData (buf : Option Buffer) : Option Bytes := buf.map fun buf => buf.buffers.flatten

/-- The fields that one `eth.decode` fills, cleared before each packet. -/
structure NgramFields where
  ipData : Option Bytes := none
  tcpData : Option Bytes := none
  udpData : Option Bytes := none
  tcpPacket : Option TcpPacket := none
  udpPacket : Option UdpPacket := none

/-- The callbacks registered by `initialize`. -/
def NgramFields.decode (frame : Frame) : NgramFields :=
  match frame with
  | .other => {}
  | .ipv4 packet =>
      -- `Ipv4Packet.parse` moves the position in `frame.getBuffer()`, nothing else;
      -- a frame that ends inside the options it reads there is not decoded.
      let fields : NgramFields := { ipData := copyData (some packet.getBuffer) }
      match packet.transport with
      | .tcp tcp => { fields with tcpPacket := some tcp, tcpData := copyData tcp.data }
      | .udp udp => { fields with udpPacket := some udp, udpData := copyData (some udp.data) }
      | .other => fields

namespace NgramCache

/-- `cache.containsKey(k) ? cache.get(k) : 0`. -/
def count (cache : NgramCache) (key : Bytes) : Word := (cache.lookup key).getD 0

/-- The loop of `updateNgram`; `fuel` bounds the windows that are left. -/
def updateLoop (n : Nat) (data : Bytes) : Nat → Nat → NgramCache → NgramCache
  | 0, _, cache => cache
  | fuel + 1, i, cache =>
      if i + n < data.length then
        let buf := (data.drop i).take n
        updateLoop n data fuel (i + 1) (cache.insert buf (1 + cache.count buf))
      else cache

def updateNgram (cache : NgramCache) (data : Option Bytes) (n : Nat) : NgramCache :=
  match data with
  | none => cache
  | some data => if data = [] then cache else updateLoop n data data.length 0 cache

end NgramCache

structure NgramRow where
  filterString : Bytes
  label : Word
  count : Word
deriving DecidableEq, Repr

structure PacketNgramRecordReader (σ : Type) where
  filter : PacketFilter
  n : Nat
  cache : NgramCache
  byteKey : Bytes
  done : Bool
  is : σ

namespace PacketNgramRecordReader

variable {σ : Type}

def initializeReader (filter : PacketFilter) (n : Nat) (is : σ) : PacketNgramRecordReader σ :=
  { filter, n, cache := ∅, byteKey := List.replicate n 0, done := false, is }

/-- The body of the packet loop after `eth.decode`. -/
def countFrame (filter : PacketFilter) (n : Nat) (cache : NgramCache) (frame : Frame) :
    NgramCache :=
  let fields := NgramFields.decode frame
  if filter.matchesPacket fields.tcpPacket fields.udpPacket then
    if filter.proto = InternetProtocol.TCP then cache.updateNgram fields.tcpData n
    else if filter.proto = InternetProtocol.UDP then cache.updateNgram fields.udpData n
    else cache.updateNgram fields.ipData n
  else cache

/-- `while (true)`, left by the exception of `getPacket`. -/
def packetLoop (input : PcapInputStream σ) (decode : PcapPacket → Frame) :
    Nat → PacketNgramRecordReader σ → JavaException × PacketNgramRecordReader σ
  | 0, reader => (.ioException, reader)
  | fuel + 1, reader =>
      match input.getPacket reader.is with
      | .stop exception is => (exception, { reader with is })
      | .item packet is =>
          packetLoop input decode fuel
            { reader with
              is
              cache := countFrame reader.filter reader.n reader.cache (decode packet) }

/-- `intValue` in Java's `int`, whose shifts use the low five bits of the distance. -/
def intValue (n : Nat) (byteKey : Bytes) : Word :=
  (List.range n).foldl
    (fun v i => v + BitVec.ofNat 32 (byteKey.getD i 0).toNat <<< ((8 * (n - i - 1)) % 32)) 0

def canIncrementByteKey (byteKey : Bytes) : Bool := byteKey.any (· ≠ 255)

def incrementByteKeyIndex (byteKey : Bytes) : Nat → Bytes
  | 0 => if byteKey.getD 0 0 = 255 then byteKey.set 0 0 else byteKey.set 0 (byteKey.getD 0 0 + 1)
  | i + 1 =>
      if byteKey.getD (i + 1) 0 = 255 then incrementByteKeyIndex (byteKey.set (i + 1) 0) i
      else byteKey.set (i + 1) (byteKey.getD (i + 1) 0 + 1)

def incrementByteKey (n : Nat) (byteKey : Bytes) : Bytes :=
  if n > 2 then incrementByteKeyIndex byteKey (n - 1)
  else if n = 2 then
    if byteKey.getD 1 0 = 255 then (byteKey.set 0 (byteKey.getD 0 0 + 1)).set 1 0
    else byteKey.set 1 (byteKey.getD 1 0 + 1)
  else byteKey.set 0 (byteKey.getD 0 0 + 1)

def row (filter : PacketFilter) (n : Nat) (cache : NgramCache) (byteKey : Bytes) : NgramRow :=
  { filterString := filter.filterString
    label := intValue n byteKey
    count := cache.count byteKey }

/-- The part of `nextKeyValue` after the packet loop. -/
def emitRow (reader : PacketNgramRecordReader σ) :
    Pull (PacketNgramRecordReader σ) (Keyed NgramRow) Ending :=
  let tuple := row reader.filter reader.n reader.cache reader.byteKey
  if reader.done then .stop .returnedFalse reader
  else if canIncrementByteKey reader.byteKey then
    .item ⟨0, tuple⟩ { reader with byteKey := incrementByteKey reader.n reader.byteKey }
  else .item ⟨0, tuple⟩ { reader with done := true }

def nextKeyValue (input : PcapInputStream σ) (decode : PcapPacket → Frame)
    (reader : PacketNgramRecordReader σ) :
    Pull (PacketNgramRecordReader σ) (Keyed NgramRow) Ending :=
  match packetLoop input decode (input.remaining reader.is + 1) reader with
  | (.ioException, reader) => emitRow { reader with is := input.close reader.is }
  | (exception, reader) => .stop (.threw exception) reader

end PacketNgramRecordReader

end Packetpig
