/-
PacketFilter, which selects frames by transport protocol and port.
-/

import Packetpig.Exceptions
import Packetpig.Library.JavaText
import Packetpig.Packet.Frame

namespace Packetpig

open Text

namespace InternetProtocol

def TCP : Nat := 6
def UDP : Nat := 17

end InternetProtocol

structure PacketFilter where
  proto : Nat
  port : Int
  filterString : Bytes
deriving DecidableEq, Repr

namespace PacketFilter

def parseProto (proto : Bytes) : Nat :=
  if lower proto = ascii "tcp" then InternetProtocol.TCP
  else if lower proto = ascii "udp" then InternetProtocol.UDP
  else 0

/-- The constructor, which may fail on a string without a port or with a port
that is no number. -/
def new (filter : Bytes) : Except JavaException PacketFilter :=
  if filter = [] then .ok { proto := 0, port := 0, filterString := filter }
  else
    match JavaText.split colon filter with
    | proto :: port :: _ =>
        match JavaText.parseInt port with
        | some port => .ok { proto := parseProto proto, port, filterString := filter }
        | none => .error .numberFormatException
    | _ => .error .arrayIndexOutOfBoundsException

def matchesPacket (filter : PacketFilter) (tcp : Option TcpPacket) (udp : Option UdpPacket) :
    Bool :=
  if filter.proto = 0 then true
  else if filter.proto = InternetProtocol.TCP then
    match tcp with
    | some tcp => tcp.sourcePort = filter.port || tcp.destinationPort = filter.port
    | none => false
  else if filter.proto = InternetProtocol.UDP then
    match udp with
    | some udp => udp.sourcePort = filter.port || udp.destinationPort = filter.port
    | none => false
  else false

end PacketFilter

end Packetpig
