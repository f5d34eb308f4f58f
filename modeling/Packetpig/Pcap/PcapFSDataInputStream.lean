/-
PcapFSDataInputStream: a pcap file read record by record from an input stream.

The underlying stream may hand out its bytes in any portions; `readFully`
collects them.  The byte order helpers of the kraken library are parameters
whose documented behaviour is part of the structure `KrakenPcap`.
-/

import Packetpig.Exceptions
import Packetpig.Library.PullSource
import Packetpig.Library.Word

namespace Packetpig

open Text

/-- Bytes still to be delivered, and how many of them each read hands out. -/
structure InputStream where
  content : Bytes
  grant : Nat → Nat
  calls : Nat
  closed : Bool

/-- `read(b, off, len)` for a positive `len`: at least one byte, at most `len`,
or nothing at the end of the stream. -/
def InputStream.read (stream : InputStream) (len : Nat) :
    Except JavaException (Option Bytes) × InputStream :=
  let after := { stream with calls := stream.calls + 1 }
  if stream.closed then (.error .ioException, after)
  else if stream.content = [] then (.ok none, after)
  else
    let count := max 1 (min len (stream.grant stream.calls))
    (.ok (some (stream.content.take count)), { after with content := stream.content.drop count })

def InputStream.close (stream : InputStream) : InputStream := { stream with closed := true }

/-- The loop of `DataInputStream.readFully`; every read lowers the number of
missing bytes, so that number is fuel enough. -/
def readFullyLoop : Nat → Nat → Bytes → InputStream → Except JavaException Bytes × InputStream
  | 0, _, done, stream => (.ok done, stream)
  | fuel + 1, missing, done, stream =>
      if missing = 0 then (.ok done, stream)
      else
        match stream.read missing with
        | (.error exception, after) => (.error exception, after)
        | (.ok none, after) => (.error .ioException, after)
        | (.ok (some portion), after) =>
            readFullyLoop fuel (missing - portion.length) (done ++ portion) after

def readFully (len : Nat) (stream : InputStream) : Except JavaException Bytes × InputStream :=
  readFullyLoop len len [] stream

private theorem readFullyLoop_spec (fuel missing : Nat) (enough : missing ≤ fuel)
    (done : Bytes) (stream : InputStream) (isOpen : stream.closed = false) :
    ∃ after, after.closed = false ∧
      after.content = stream.content.drop missing ∧
      readFullyLoop fuel missing done stream =
        if missing ≤ stream.content.length then (.ok (done ++ stream.content.take missing), after)
        else (.error .ioException, after) := by
  induction fuel generalizing missing done stream with
  | zero =>
      have nothing : missing = 0 := by omega
      subst missing
      exact ⟨stream, isOpen, rfl, by simp [readFullyLoop]⟩
  | succ fuel ih =>
      by_cases nothing : missing = 0
      · subst missing
        exact ⟨stream, isOpen, rfl, by simp [readFullyLoop]⟩
      by_cases empty : stream.content = []
      · refine ⟨{ stream with calls := stream.calls + 1 }, isOpen, by simp [empty], ?_⟩
        simp [readFullyLoop, InputStream.read, nothing, isOpen, empty]
      -- A read of a nonempty open stream grants between 1 and `missing` bytes.
      obtain ⟨count, positive, bounded, countEq⟩ : ∃ count, 1 ≤ count ∧ count ≤ missing ∧
          count = max 1 (min missing (stream.grant stream.calls)) :=
        ⟨_, by omega, by omega, rfl⟩
      have someLeft := List.length_pos_of_ne_nil empty
      let later : InputStream :=
        { stream with calls := stream.calls + 1, content := stream.content.drop count }
      obtain ⟨after, afterOpen, afterContent, afterLoop⟩ :=
        ih (missing - (stream.content.take count).length)
          (by rw [List.length_take]; omega) (done ++ stream.content.take count) later isOpen
      have laterLength : later.content.length = stream.content.length - count := List.length_drop
      have unfolded : readFullyLoop (fuel + 1) missing done stream =
          readFullyLoop fuel (missing - (stream.content.take count).length)
            (done ++ stream.content.take count) later := by
        simp only [readFullyLoop, nothing, if_false, InputStream.read, isOpen, empty,
          Bool.false_eq_true, ← countEq, later]
      refine ⟨after, afterOpen, ?_, ?_⟩
      · rw [afterContent]
        change (stream.content.drop count).drop _ = _
        rw [List.drop_drop, List.length_take]
        by_cases short : stream.content.length ≤ count
        · rw [List.drop_eq_nil_of_le (by omega), List.drop_eq_nil_of_le (by omega)]
        · congr 1
          omega
      · rw [unfolded, afterLoop, laterLength, List.length_take]
        by_cases available : missing ≤ stream.content.length
        · have whole : stream.content.take missing =
              stream.content.take count ++ later.content.take (missing - count) := by
            change _ = _ ++ (stream.content.drop count).take _
            rw [← List.take_add, Nat.add_sub_cancel' bounded]
          rw [if_pos (by omega), if_pos available, whole, List.append_assoc,
            Nat.min_eq_left (by omega)]
        · rw [if_neg (by omega), if_neg available]

theorem readFully_spec (len : Nat) (stream : InputStream) (isOpen : stream.closed = false) :
    ∃ after, after.closed = false ∧ after.content = stream.content.drop len ∧
      readFully len stream =
        if len ≤ stream.content.length then (.ok (stream.content.take len), after)
        else (.error .ioException, after) :=
  readFullyLoop_spec len len (Nat.le_refl len) [] stream isOpen

structure GlobalHeader where
  magicNumber : Word
  major : BitVec 16
  minor : BitVec 16
  tz : Word
  sigfigs : Word
  snaplen : Word
  network : Word
deriving DecidableEq

structure PacketHeader where
  tsSec : Word
  tsUsec : Word
  inclLen : Word
  origLen : Word
deriving DecidableEq, Repr

structure PcapPacket where
  packetHeader : PacketHeader
  packetData : Bytes
deriving DecidableEq, Repr

/-- The two kraken functions the reader calls, with what it relies on. -/
structure KrakenPcap where
  swap : Word → Word
  swapByteOrder : GlobalHeader → GlobalHeader
  swap_reverses : ∀ word, swap word = word.reverseBytes
  swapByteOrder_magic : ∀ header, (swapByteOrder header).magicNumber = header.magicNumber

/-- `ByteBuffer.getInt` at the front of the remaining bytes. -/
def getInt : Bytes → Except JavaException (Word × Bytes)
  | b3 :: b2 :: b1 :: b0 :: rest => .ok (Word.ofBytes b3 b2 b1 b0, rest)
  | _ => .error .bufferUnderflowException

def getShort : Bytes → Except JavaException (BitVec 16 × Bytes)
  | b1 :: b0 :: rest => .ok (BitVec.ofNat 16 (b1.toNat * 256 + b0.toNat), rest)
  | _ => .error .bufferUnderflowException

def swappedMagic : Word := 0xD4C3B2A1

def nativeMagic : Word := 0xA1B2C3D4

structure PcapFSDataInputStream where
  globalHeader : GlobalHeader
  is : InputStream
  length : Int
  offset : Word

def parseGlobalHeader (buf : Bytes) : Except JavaException GlobalHeader := do
  let (magic, buf) ← getInt buf
  let (major, buf) ← getShort buf
  let (minor, buf) ← getShort buf
  let (tz, buf) ← getInt buf
  let (sigfigs, buf) ← getInt buf
  let (snaplen, buf) ← getInt buf
  let (network, _) ← getInt buf
  return ⟨magic, major, minor, tz, sigfigs, snaplen, network⟩

/-- The swapped copy of `snaplen` that the source makes last is not used. -/
def readGlobalHeader (kraken : KrakenPcap) (stream : InputStream) :
    Except JavaException GlobalHeader × InputStream :=
  match readFully 24 stream with
  | (.error exception, after) => (.error exception, after)
  | (.ok buffer, after) =>
      match parseGlobalHeader buffer with
      | .error exception => (.error exception, after)
      | .ok header =>
          if header.magicNumber = swappedMagic then (.ok (kraken.swapByteOrder header), after)
          else (.ok header, after)

def parsePacketHeader (kraken : KrakenPcap) (magicNumber : Word) (buf : Bytes) :
    Except JavaException PacketHeader := do
  let (tsSec, buf) ← getInt buf
  let (tsUsec, buf) ← getInt buf
  let (inclLen, buf) ← getInt buf
  let (origLen, _) ← getInt buf
  if magicNumber = swappedMagic then
    return ⟨kraken.swap tsSec, kraken.swap tsUsec, kraken.swap inclLen, kraken.swap origLen⟩
  else
    return ⟨tsSec, tsUsec, inclLen, origLen⟩

def readPacketHeader (kraken : KrakenPcap) (magicNumber : Word) (stream : InputStream) :
    Except JavaException PacketHeader × InputStream :=
  match readFully 16 stream with
  | (.error exception, after) => (.error exception, after)
  | (.ok buffer, after) => (parsePacketHeader kraken magicNumber buffer, after)

/-- `new byte[packetLength]` comes before anything is read. -/
def readPacketData (packetLength : Word) (stream : InputStream) :
    Except JavaException Bytes × InputStream :=
  if packetLength.toInt < 0 then (.error .negativeArraySizeException, stream)
  else readFully packetLength.toNat stream

namespace PcapFSDataInputStream

/-- The constructor; a failure leaves no object behind. -/
def new (kraken : KrakenPcap) (data : InputStream) (length : Int) :
    Except JavaException PcapFSDataInputStream :=
  match readGlobalHeader kraken data with
  | (.error exception, _) => .error exception
  | (.ok header, after) => .ok { globalHeader := header, is := after, length, offset := 0 }

/-- `getPacket`, which is `readPacket` with the magic number of the file. -/
def getPacket (kraken : KrakenPcap) (stream : PcapFSDataInputStream) :
    Pull PcapFSDataInputStream PcapPacket JavaException :=
  match readPacketHeader kraken stream.globalHeader.magicNumber stream.is with
  | (.error exception, after) => .stop exception { stream with is := after }
  | (.ok packetHeader, after) =>
      match readPacketData packetHeader.inclLen after with
      | (.error exception, last) =>
          .stop exception { stream with is := last, offset := stream.offset + 16 }
      | (.ok packetData, last) =>
          .item { packetHeader, packetData }
            { stream with is := last, offset := stream.offset + 16 + packetHeader.inclLen }

def close (stream : PcapFSDataInputStream) : PcapFSDataInputStream :=
  { stream with is := stream.is.close }

end PcapFSDataInputStream

end Packetpig
