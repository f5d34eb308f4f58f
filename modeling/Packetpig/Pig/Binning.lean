/-
The script binning.pig: the packets of a capture in bins of `$time` seconds,
with a sum for TCP, one for UDP and one for all packets of a bin.

A relation is a list of rows in any order; the sums do not overflow.
-/

import Packetpig.Library.Bins
import Packetpig.Library.Groups
import Packetpig.Packet.PacketRecordReader

namespace Packetpig

structure PigPacket where
  ts : Int
  ipTotalLength : Int
  ipProto : Int
  tcpLen : Int
  udpLen : Int
deriving DecidableEq, Repr

structure BinningRow where
  bin : Int
  tcpLen : Int
  udpLen : Int
  bw : Int
deriving DecidableEq, Repr

namespace Binning

open Groups

def number : PacketValue → Int
  | .number value => value
  | .text _ => 0

/-- The `AS` clause, by position; `ts` is the key in front of the values. -/
def load (row : Keyed (List PacketValue)) : PigPacket :=
  let column (i : Nat) : Int := (row.tuple[i]?.map number).getD 0
  { ts := row.key
    ipTotalLength := column 3
    ipProto := column 8
    tcpLen := column 27
    udpLen := column 30 }

theorem load_row (packetTuple : PacketTuple) :
    load (PacketRecordReader.row packetTuple) =
      { ts := packetKey packetTuple.packet
        ipTotalLength := packetTuple.totalLen
        ipProto := packetTuple.proto
        tcpLen := packetTuple.tcpSize
        udpLen := packetTuple.udpLength } := rfl

/-- `ts / $time * $time`. -/
def bin (time : Int) (packet : PigPacket) : Int := Bins.bin time packet.ts

def tcp (packets : List PigPacket) : List PigPacket := packets.filter (·.ipProto = 6)

def udp (packets : List PigPacket) : List PigPacket := packets.filter (·.ipProto = 17)

/-- `GROUP packets BY (ts / $time * $time)`, then `SUM` over one column. -/
def summarize (time : Int) (column : PigPacket → Int) (packets : List PigPacket) :
    List (Int × Int) :=
  (groupBy (bin time) packets).map fun grouped => (grouped.1, (grouped.2.map column).sum)

def tcpSummary (time : Int) (packets : List PigPacket) : List (Int × Int) :=
  summarize time PigPacket.tcpLen (tcp packets)

def udpSummary (time : Int) (packets : List PigPacket) : List (Int × Int) :=
  summarize time PigPacket.udpLen (udp packets)

def bwSummary (time : Int) (packets : List PigPacket) : List (Int × Int) :=
  summarize time PigPacket.ipTotalLength packets

/-- `JOIN tcp_summary BY group, udp_summary BY group, bw_summary BY group`. -/
def summary (time : Int) (packets : List PigPacket) : List BinningRow :=
  (innerJoin (innerJoin (tcpSummary time packets) (udpSummary time packets))
      (bwSummary time packets)).map fun joined =>
    { bin := joined.1, tcpLen := joined.2.1.1, udpLen := joined.2.1.2, bw := joined.2.2 }

end Binning

end Packetpig
