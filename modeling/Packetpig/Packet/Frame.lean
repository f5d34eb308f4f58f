/-
What the kraken decoders report about one frame.

A decoded packet does not own its bytes: its data is the buffer of the frame,
read up to where the payload starts, with everything that was read before still
in the arrays behind it and the padding of the frame after the payload.
-/

import Packetpig.Library.Text

namespace Packetpig

open Text

/-- `ChainBuffer`: its arrays and how many of their bytes have been read. -/
structure Buffer where
  buffers : List Bytes
  position : Nat
  inside : position ≤ buffers.flatten.length
  small : buffers.flatten.length < 2 ^ 31
deriving DecidableEq, Repr

namespace Buffer

def bytes (buffer : Buffer) : Bytes := buffer.buffers.flatten

/-- What `readableBytes` counts and `gets` delivers. -/
def unread (buffer : Buffer) : Bytes := buffer.bytes.drop buffer.position

end Buffer

structure TcpPacket where
  sourcePort : Nat
  destinationPort : Nat
  dataLength : Int
  data : Option Buffer
  headerRead : ∀ buffer ∈ data, 20 ≤ buffer.position
deriving DecidableEq, Repr

structure UdpPacket where
  sourcePort : Nat
  destinationPort : Nat
  length : Nat
  data : Buffer
  headerRead : 8 ≤ data.position
deriving DecidableEq, Repr

inductive Transport where
  | tcp (packet : TcpPacket)
  | udp (packet : UdpPacket)
  | other
deriving DecidableEq, Repr

/-- An IPv4 packet with the frame it came in: `l2Header` is the array in which
the frame keeps its Ethernet header. Addresses are kept in their dotted form. -/
structure Ipv4Packet where
  sourceAddress : Bytes
  destinationAddress : Bytes
  l2Header : Bytes
  ihl : Nat
  totalLength : Nat
  data : Buffer
  transport : Transport
  l2Length : l2Header.length = 14
  small : 14 + data.bytes.length < 2 ^ 31
deriving DecidableEq, Repr

/-- `frame.getBuffer()`, a new buffer from the Ethernet header on. -/
def Ipv4Packet.getBuffer (packet : Ipv4Packet) : Buffer where
  buffers := packet.l2Header :: packet.data.buffers
  position := 0
  inside := Nat.zero_le _
  small := by
    rw [List.flatten_cons, List.length_append, packet.l2Length]
    exact packet.small

/-- A frame as the registered decoders see it during `eth.decode`: each callback
runs at most once, the IPv4 one before that of the transport protocol. -/
inductive Frame where
  | ipv4 (packet : Ipv4Packet)
  | other
deriving DecidableEq, Repr

def ethernetHeader : Bytes := [2, 0, 0, 0, 0, 2, 2, 0, 0, 0, 0, 1, 8, 0]

theorem ethernetHeader_length : ethernetHeader.length = 14 := rfl

end Packetpig
