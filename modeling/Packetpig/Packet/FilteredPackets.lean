/-
The frames that a filter string `proto:port` asks for, and the bytes of them
that PacketNgramRecordReader counts.

In `PacketFilter` the protocol number 0 means that there is no filter, and
`parseProto` answers 0 for every name besides tcp and udp. Whatever is selected,
`copyData` copies the headers in front of the payload along.
-/

import Packetpig.Packet.CountedFrames

namespace Packetpig

open Text

namespace Transport

def protocol : Transport → Option Bytes
  | .tcp _ => some (ascii "tcp")
  | .udp _ => some (ascii "udp")
  | .other => none

def ports : Transport → List Nat
  | .tcp packet => [packet.sourcePort, packet.destinationPort]
  | .udp packet => [packet.sourcePort, packet.destinationPort]
  | .other => []

end Transport

/-- A filter string `proto:port` whose port is a number. -/
structure PortFilter where
  proto : Bytes
  port : Bytes
  number : Int
  noColon : colon ∉ proto
  numeric : JavaText.parseInt port = some number

namespace PortFilter

def text (request : PortFilter) : Bytes := request.proto ++ colon :: request.port

def Selects (request : PortFilter) (transport : Transport) : Prop :=
  transport.protocol = some (lower request.proto) ∧
    ∃ port ∈ transport.ports, (port : Int) = request.number

instance (request : PortFilter) (transport : Transport) :
    Decidable (request.Selects transport) :=
  inferInstanceAs (Decidable (_ ∧ _))

/-- The payload that is to be counted for a frame. -/
def payload (request : PortFilter) : Frame → Option PlacedPayload
  | .ipv4 packet =>
      if request.Selects packet.transport then packet.transport.placed else none
  | .other => none

end PortFilter

open PacketNgramRecordReader

namespace PortFilter

end PortFilter

namespace PortFilter

end PortFilter

end Packetpig
