/-
DnsPacketRecordReader and DnsPacketAllRecordReader: pull packets until the UDP
callback has parsed a DNS message, queue one row for each question and answer
of the message, and hand the queue out row by row.

The two classes differ in the columns of a row and in what the UDP decoder
keeps besides the message; the loop around them is the same text.
-/

import Packetpig.Library.JavaText
import Packetpig.Packet.Frame
import Packetpig.Pcap.PcapInputStream

namespace Packetpig

open Text

inductive RData where
  | a (address : Bytes)
  | aaaa (address : Bytes)
  | mx (target : Bytes)
  | ptr (target : Bytes)
  | txt (strings : List Bytes)
  | srv (target : Bytes)
  | afsdb
  | other
deriving DecidableEq, Repr

structure DnsRecord where
  name : Bytes
  dclass : Nat
  type : Nat
  ttl : Nat
  data : RData
deriving DecidableEq, Repr

structure DnsMessage where
  id : Nat
  qr : Bool
  question : List DnsRecord
  answer : List DnsRecord
deriving DecidableEq, Repr

structure DnsFields where
  valid : Bool := false
  dns : Option DnsMessage := none
  srcIP : Option Bytes := none
  dstIP : Option Bytes := none
deriving DecidableEq, Repr

namespace DnsFields

def clear (_ : DnsFields) : DnsFields := {}

/-- `udpProcessor.process`; a message that does not parse throws inside it. -/
def process (parseMessage : Bytes → Option DnsMessage) (p : UdpPacket) (fields : DnsFields) :
    DnsFields :=
  match parseMessage p.data.unread with
  | some message => { fields with dns := some message, valid := true }
  | none => fields.clear

end DnsFields

structure DnsColumns (ρ : Type) where
  udpDecoder : (Bytes → Option DnsMessage) → Ipv4Packet → UdpPacket → DnsFields → DnsFields
  rows : DnsFields → DnsMessage → List ρ

structure DnsReader (σ ρ : Type) where
  tupleQueue : List ρ
  fields : DnsFields
  key : Int
  is : σ

namespace DnsReader

variable {σ ρ : Type}

def initializeReader (is : σ) : DnsReader σ ρ := { tupleQueue := [], fields := {}, key := 0, is }

/-- `eth.decode` with the registered callbacks. -/
def decodeFrame (columns : DnsColumns ρ) (parseMessage : Bytes → Option DnsMessage)
    (frame : Frame) (fields : DnsFields) : DnsFields :=
  match frame with
  | .ipv4 packet =>
      match packet.transport with
      | .udp udp => columns.udpDecoder parseMessage packet udp fields
      | _ => fields
  | .other => fields

/-- `do { ... } while (!valid)`, left early by an exception of `getPacket`. -/
def seek (input : PcapInputStream σ) (columns : DnsColumns ρ) (decode : PcapPacket → Frame)
    (parseMessage : Bytes → Option DnsMessage) :
    Nat → DnsReader σ ρ → Except JavaException PcapPacket × DnsReader σ ρ
  | 0, reader => (.error .ioException, reader)
  | fuel + 1, reader =>
      match input.getPacket reader.is with
      | .stop exception is => (.error exception, { reader with is })
      | .item packet is =>
          let fields := decodeFrame columns parseMessage (decode packet) reader.fields
          if fields.valid then (.ok packet, { reader with is, fields })
          else seek input columns decode parseMessage fuel { reader with is, fields }

def nextKeyValue (input : PcapInputStream σ) (columns : DnsColumns ρ)
    (decode : PcapPacket → Frame) (parseMessage : Bytes → Option DnsMessage)
    (reader : DnsReader σ ρ) : Pull (DnsReader σ ρ) (Keyed ρ) Ending :=
  match reader.tupleQueue with
  | tuple :: tupleQueue => .item ⟨reader.key, tuple⟩ { reader with tupleQueue }
  | [] =>
      match seek input columns decode parseMessage (input.remaining reader.is + 1) reader with
      | (.error .ioException, reader) =>
          .stop .returnedFalse
            { reader with fields := reader.fields.clear, is := input.close reader.is }
      | (.error exception, reader) => .stop (.threw exception) reader
      | (.ok packet, reader) =>
          match reader.fields.dns with
          | none => .stop (.threw .nullPointerException) reader
          | some dns =>
              let key := packetKey packet
              let fields := reader.fields.clear
              match columns.rows reader.fields dns with
              | tuple :: tupleQueue => .item ⟨key, tuple⟩ { reader with tupleQueue, fields, key }
              | [] =>
                  -- The source returns false here instead of looking further.
                  .stop .returnedFalse { reader with fields, key, is := input.close reader.is }

end DnsReader

/-- `dns.getHeader().getFlag(Flags.QR) ? "response" : "question"`. -/
def DnsMessage.mode (message : DnsMessage) : Bytes :=
  if message.qr then ascii "response" else ascii "question"

structure DnsRow where
  id : Nat
  mode : Bytes
  qname : Bytes
  address : Option Bytes
  ttl : Nat
deriving DecidableEq, Repr

namespace DnsPacketRecordReader

def questionRow (message : DnsMessage) (rec : DnsRecord) : DnsRow :=
  { id := message.id, mode := message.mode, qname := rec.name, address := none, ttl := 0 }

def address (rec : DnsRecord) : Option Bytes :=
  match rec.data with
  | .a address => some address
  | _ => none

def answerRow (message : DnsMessage) (rec : DnsRecord) : DnsRow :=
  { id := message.id
    mode := message.mode
    qname := rec.name
    address := address rec
    ttl := rec.ttl }

def columns : DnsColumns DnsRow :=
  { udpDecoder := fun parseMessage _ udp fields => fields.process parseMessage udp
    rows := fun _ message =>
      message.question.map (questionRow message) ++ message.answer.map (answerRow message) }

def nextKeyValue {σ : Type} (input : PcapInputStream σ) :
    (PcapPacket → Frame) → (Bytes → Option DnsMessage) → DnsReader σ DnsRow →
      Pull (DnsReader σ DnsRow) (Keyed DnsRow) Ending :=
  DnsReader.nextKeyValue input columns

end DnsPacketRecordReader

structure DnsAllRow extends DnsRow where
  srcIP : Option Bytes
  dstIP : Option Bytes
  dclass : Nat
  type : Nat
deriving DecidableEq, Repr

namespace DnsPacketAllRecordReader

/-- The fourth column; for AFSDB the source asks for the owner name. -/
def address (rec : DnsRecord) : Option Bytes :=
  match rec.data with
  | .a address => some address
  | .aaaa address => some address
  | .mx target => some target
  | .ptr target => some target
  | .txt strings => some (JavaText.listToString strings)
  | .srv target => some target
  | .afsdb => some rec.name
  | .other => none

def questionRow (fields : DnsFields) (message : DnsMessage) (rec : DnsRecord) : DnsAllRow :=
  { id := message.id
    mode := message.mode
    qname := rec.name
    address := none
    ttl := 0
    srcIP := fields.srcIP
    dstIP := fields.dstIP
    dclass := rec.dclass
    type := rec.type }

def answerRow (fields : DnsFields) (message : DnsMessage) (rec : DnsRecord) : DnsAllRow :=
  { id := message.id
    mode := message.mode
    qname := rec.name
    address := address rec
    ttl := rec.ttl
    srcIP := fields.srcIP
    dstIP := fields.dstIP
    dclass := rec.dclass
    type := rec.type }

/-- The decoder's `process`: the UDP processor runs inside `super.process`. -/
def udpDecoder (parseMessage : Bytes → Option DnsMessage) (packet : Ipv4Packet)
    (udp : UdpPacket) (fields : DnsFields) : DnsFields :=
  { fields.process parseMessage udp with
    srcIP := some packet.sourceAddress
    dstIP := some packet.destinationAddress }

def columns : DnsColumns DnsAllRow :=
  { udpDecoder
    rows := fun fields message =>
      message.question.map (questionRow fields message) ++
        message.answer.map (answerRow fields message) }

def nextKeyValue {σ : Type} (input : PcapInputStream σ) :
    (PcapPacket → Frame) → (Bytes → Option DnsMessage) → DnsReader σ DnsAllRow →
      Pull (DnsReader σ DnsAllRow) (Keyed DnsAllRow) Ending :=
  DnsReader.nextKeyValue input columns

end DnsPacketAllRecordReader

end Packetpig
