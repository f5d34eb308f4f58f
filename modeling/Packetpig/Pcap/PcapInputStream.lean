/-
The interface through which the record readers see a capture, and its two
implementations used here: the stream over the bytes of a file, and a plain
list of packets.

A record reader is itself pulled by its loader: each call of `nextKeyValue`
hands over a row under its key, or ends the run.
-/

import Packetpig.Pcap.RecordStream

namespace Packetpig

open Text

/-- `getPacket` and `close`. Every packet uses up part of what remains, and a
closed stream only throws. -/
structure PcapInputStream (σ : Type) where
  getPacket : σ → Pull σ PcapPacket JavaException
  close : σ → σ
  remaining : σ → Nat
  remaining_lt : ∀ state packet after,
    getPacket state = .item packet after → remaining after < remaining state
  Closed : σ → Prop
  close_closed : ∀ state, Closed (close state)
  getPacket_closed : ∀ state, Closed state →
    ∃ after, getPacket state = .stop .ioException after ∧ Closed after

namespace PcapInputStream

variable {σ : Type}

def source (input : PcapInputStream σ) : PullSource σ PcapPacket JavaException :=
  { next := input.getPacket
    size := input.remaining
    shrinks := input.remaining_lt }

/-- The packets a stream delivers before its first exception. -/
def Delivers (input : PcapInputStream σ) (state : σ) (packets : List PcapPacket)
    (exception : JavaException) (final : σ) : Prop :=
  Yields input.getPacket state packets exception final

theorem Delivers.length_le {input : PcapInputStream σ} {state final : σ}
    {packets : List PcapPacket} {exception : JavaException}
    (run : input.Delivers state packets exception final) :
    packets.length ≤ input.remaining state :=
  input.source.length_le_size run

end PcapInputStream

private theorem readFullyLoop_of_closed (fuel missing : Nat) (positive : 0 < missing)
    (enough : missing ≤ fuel) (done : Bytes) (stream : InputStream)
    (isClosed : stream.closed = true) :
    readFullyLoop fuel missing done stream =
      (.error .ioException, { stream with calls := stream.calls + 1 }) := by
  cases fuel with
  | zero => omega
  | succ fuel =>
      have some : missing ≠ 0 := by omega
      simp only [readFullyLoop, some, if_false, InputStream.read, isClosed, if_true]

private theorem getPacket_of_closed (kraken : KrakenPcap) (stream : PcapFSDataInputStream)
    (isClosed : stream.is.closed = true) :
    stream.getPacket kraken =
      .stop .ioException { stream with is := { stream.is with calls := stream.is.calls + 1 } } := by
  simp only [PcapFSDataInputStream.getPacket, readPacketHeader, readFully,
    readFullyLoop_of_closed 16 16 (by omega) (by omega) [] stream.is isClosed]

private theorem exists_reads (stream : PcapFSDataInputStream)
    (isOpen : stream.is.closed = false) : ∃ order, Reads order stream.is.content stream := by
  by_cases swapped : stream.globalHeader.magicNumber = swappedMagic
  · exact ⟨.little, isOpen, rfl, by simp [swapped]⟩
  · exact ⟨.big, isOpen, rfl, by simp [swapped]⟩

theorem getPacket_cases (kraken : KrakenPcap) {order : ByteOrder} {bytes : Bytes}
    {stream : PcapFSDataInputStream} (reads : Reads order bytes stream) :
    (∃ record rest after, bytes = PcapRecord.encode order record ++ rest ∧
      stream.getPacket kraken = .item record.packet after ∧ Reads order rest after) ∨
    (∃ (header : PacketHeader) (rest : Bytes) (after : PcapFSDataInputStream),
      bytes = header.encode order ++ rest ∧ header.inclLen.toInt < 0 ∧
      stream.getPacket kraken = .stop .negativeArraySizeException after) ∨
    (∃ after, (∀ record rest, bytes ≠ PcapRecord.encode order record ++ rest) ∧
      (∀ (header : PacketHeader) (rest : Bytes), header.inclLen.toInt < 0 →
        bytes ≠ header.encode order ++ rest) ∧
      stream.getPacket kraken = .stop .ioException after) := by
  have onlyOnce : ∀ after, stream.getPacket kraken = .stop .ioException after →
      (∀ record rest, bytes ≠ PcapRecord.encode order record ++ rest) ∧
      (∀ (header : PacketHeader) (rest : Bytes), header.inclLen.toInt < 0 →
        bytes ≠ header.encode order ++ rest) := by
    intro after stopped
    constructor
    · intro record rest same
      subst same
      obtain ⟨_, pulled, -⟩ := getPacket_of_record kraken reads
      rw [pulled] at stopped
      cases stopped
    · intro header rest negative same
      subst same
      obtain ⟨_, pulled, -⟩ := getPacket_of_negative kraken reads negative
      rw [pulled] at stopped
      cases stopped
  by_cases short : bytes.length < 16
  · obtain ⟨after, pulled, -⟩ := getPacket_of_short kraken reads short
    exact .inr (.inr ⟨after, (onlyOnce after pulled).1, (onlyOnce after pulled).2, pulled⟩)
  obtain ⟨header, rest, rfl⟩ := PacketHeader.exists_encode order bytes (by omega)
  by_cases negative : header.inclLen.toInt < 0
  · obtain ⟨after, pulled, -⟩ := getPacket_of_negative kraken reads negative
    exact .inr (.inl ⟨header, rest, after, rfl, negative, pulled⟩)
  by_cases truncated : rest.length < header.inclLen.toNat
  · obtain ⟨after, pulled, -⟩ :=
      getPacket_of_truncated kraken reads negative truncated
    exact .inr (.inr ⟨after, (onlyOnce after pulled).1, (onlyOnce after pulled).2, pulled⟩)
  -- The header announces data that is there, so the two make up a record.
  have small : header.inclLen.toNat < 2 ^ 31 := (Word.toInt_nonneg_iff _).mp (by omega)
  have dataLength : (rest.take header.inclLen.toNat).length = header.inclLen.toNat := by
    rw [List.length_take]
    omega
  let record : PcapRecord :=
    ⟨header.tsSec, header.tsUsec, header.origLen, rest.take header.inclLen.toNat,
      by rw [dataLength]; exact small⟩
  have sameHeader : record.packet.packetHeader = header := by
    change PacketHeader.mk _ _ (BitVec.ofNat 32 (rest.take header.inclLen.toNat).length) _ = _
    rw [dataLength, BitVec.ofNat_toNat, BitVec.setWidth_eq]
  have whole : header.encode order ++ rest =
      record.encode order ++ rest.drop header.inclLen.toNat := by
    rw [PcapRecord.encode, sameHeader, List.append_assoc]
    exact congrArg _ (List.take_append_drop _ rest).symm
  rw [whole] at reads
  obtain ⟨after, pulled, readsAfter⟩ := getPacket_of_record kraken reads
  exact .inl ⟨record, _, after, whole, pulled, readsAfter⟩

def fsDataInputStream (kraken : KrakenPcap) : PcapInputStream PcapFSDataInputStream :=
  { getPacket := PcapFSDataInputStream.getPacket kraken
    close := PcapFSDataInputStream.close
    remaining := fun stream => stream.is.content.length
    remaining_lt := by
      intro stream packet after pulled
      cases isOpen : stream.is.closed with
      | true =>
          rw [getPacket_of_closed kraken stream isOpen] at pulled
          cases pulled
      | false =>
          obtain ⟨order, reads⟩ := exists_reads stream isOpen
          rcases getPacket_cases kraken reads with
            ⟨record, rest, after', content, pulled', readsAfter⟩ | ⟨_, _, _, _, _, pulled'⟩ |
              ⟨_, _, _, pulled'⟩
          · rw [pulled] at pulled'
            cases pulled'
            rw [readsAfter.content, content, List.length_append, record.encode_length]
            omega
          · rw [pulled] at pulled'
            cases pulled'
          · rw [pulled] at pulled'
            cases pulled'
    Closed := fun stream => stream.is.closed = true
    close_closed := fun _ => rfl
    getPacket_closed := by
      intro stream isClosed
      exact ⟨_, getPacket_of_closed kraken stream isClosed, isClosed⟩ }

structure Capture where
  packets : List PcapPacket
  closed : Bool
deriving DecidableEq, Repr

namespace Capture

def getPacket (capture : Capture) : Pull Capture PcapPacket JavaException :=
  if capture.closed then .stop .ioException capture
  else
    match capture.packets with
    | [] => .stop .ioException capture
    | packet :: packets => .item packet { capture with packets }

def close (capture : Capture) : Capture := { capture with closed := true }

def fresh (packets : List PcapPacket) : Capture := { packets, closed := false }

theorem delivers_fresh (packets : List PcapPacket) :
    Yields getPacket (fresh packets) packets .ioException (fresh []) := by
  induction packets with
  | nil => exact .stop rfl
  | cons packet packets ih => exact .item rfl ih

theorem advances_fresh (before after : List PcapPacket) :
    Advances getPacket (fresh (before ++ after)) before (fresh after) := by
  induction before with
  | nil => exact .refl
  | cons packet before ih => exact .item rfl ih

end Capture

def captureInputStream : PcapInputStream Capture :=
  { getPacket := Capture.getPacket
    close := Capture.close
    remaining := fun capture => capture.packets.length
    remaining_lt := by
      intro found packet after pulled
      rcases found with ⟨packets, closed⟩
      cases closed with
      | true => cases pulled
      | false =>
          cases packets with
          | nil => cases pulled
          | cons head tail =>
              cases pulled
              exact Nat.lt_succ_self _
    Closed := fun capture => capture.closed = true
    close_closed := fun _ => rfl
    getPacket_closed := by
      intro capture isClosed
      exact ⟨capture, by simp [Capture.getPacket, isClosed], isClosed⟩ }

theorem captureInputStream_delivers (packets : List PcapPacket) :
    captureInputStream.Delivers (.fresh packets) packets .ioException (.fresh []) :=
  Capture.delivers_fresh packets

inductive Ending where
  | returnedFalse
  | threw (exception : JavaException)
deriving DecidableEq, Repr

/-- A row with the key that `getCurrentKey` gives while it is current. -/
structure Keyed (ρ : Type) where
  key : Int
  tuple : ρ
deriving DecidableEq, Repr

/-- `new Date(tv_sec * 1000 + tv_usec / 1000).getTime() / 1000`. -/
def packetKey (packet : PcapPacket) : Int :=
  (packet.packetHeader.tsSec.toInt * 1000 +
    packet.packetHeader.tsUsec.toInt.tdiv 1000).tdiv 1000

end Packetpig
