/-
The bytes of a pcap file in either byte order, and what `getPacket` does on
them: it returns the next record exactly when a complete one is in front, and
otherwise stops with the exception that the bytes in front determine.
-/

import Packetpig.Pcap.PcapFSDataInputStream

namespace Packetpig

open Text

inductive ByteOrder where
  | big
  | little
deriving DecidableEq, Repr

namespace ByteOrder

def encode : ByteOrder → Word → Bytes
  | big => Word.bigEndian
  | little => Word.littleEndian

def magic : ByteOrder → Word
  | big => nativeMagic
  | little => swappedMagic

def fix (order : ByteOrder) (kraken : KrakenPcap) (word : Word) : Word :=
  if order = little then kraken.swap word else word

theorem magic_eq_swappedMagic_iff (order : ByteOrder) :
    order.magic = swappedMagic ↔ order = little := by
  cases order <;> decide

@[simp] theorem encode_length (order : ByteOrder) (word : Word) :
    (order.encode word).length = 4 := by
  cases order <;> rfl

theorem getInt_encode (order : ByteOrder) (kraken : KrakenPcap) (word : Word) (rest : Bytes) :
    ∃ raw, getInt (order.encode word ++ rest) = .ok (raw, rest) ∧
      order.fix kraken raw = word := by
  cases order with
  | big =>
      refine ⟨word, ?_, if_neg (by decide)⟩
      change Except.ok (Word.ofBytes _ _ _ _, rest) = _
      rw [Word.ofBytes_byteAt]
  | little =>
      refine ⟨word.reverseBytes, rfl, ?_⟩
      simp only [fix, if_true, kraken.swap_reverses, Word.reverseBytes_reverseBytes]

theorem exists_encode (order : ByteOrder) (bytes : Bytes) (enough : 4 ≤ bytes.length) :
    ∃ word rest, bytes = order.encode word ++ rest := by
  match bytes, enough with
  | b3 :: b2 :: b1 :: b0 :: rest, _ =>
      cases order with
      | big =>
          obtain ⟨e3, e2, e1, e0⟩ := Word.byteAt_ofBytes b3 b2 b1 b0
          exact ⟨Word.ofBytes b3 b2 b1 b0, rest, by simp [encode, Word.bigEndian, e3, e2, e1, e0]⟩
      | little =>
          obtain ⟨e3, e2, e1, e0⟩ := Word.byteAt_ofBytes b0 b1 b2 b3
          exact ⟨Word.ofBytes b0 b1 b2 b3, rest,
            by simp [encode, Word.littleEndian, Word.bigEndian, e3, e2, e1, e0]⟩

end ByteOrder

def PacketHeader.encode (order : ByteOrder) (header : PacketHeader) : Bytes :=
  order.encode header.tsSec ++ (order.encode header.tsUsec ++
    (order.encode header.inclLen ++ order.encode header.origLen))

@[simp] theorem PacketHeader.encode_length (order : ByteOrder) (header : PacketHeader) :
    (header.encode order).length = 16 := by
  simp [PacketHeader.encode]

theorem PacketHeader.exists_encode (order : ByteOrder) (bytes : Bytes)
    (enough : 16 ≤ bytes.length) :
    ∃ (header : PacketHeader) (rest : Bytes), bytes = header.encode order ++ rest := by
  obtain ⟨tsSec, bytes₁, rfl⟩ := order.exists_encode bytes (by omega)
  simp only [List.length_append, ByteOrder.encode_length] at enough
  obtain ⟨tsUsec, bytes₂, rfl⟩ := order.exists_encode bytes₁ (by omega)
  simp only [List.length_append, ByteOrder.encode_length] at enough
  obtain ⟨inclLen, bytes₃, rfl⟩ := order.exists_encode bytes₂ (by omega)
  simp only [List.length_append, ByteOrder.encode_length] at enough
  obtain ⟨origLen, rest, rfl⟩ := order.exists_encode bytes₃ (by omega)
  exact ⟨⟨tsSec, tsUsec, inclLen, origLen⟩, rest, by simp [PacketHeader.encode]⟩

theorem parsePacketHeader_encode (kraken : KrakenPcap) (order : ByteOrder) (magicNumber : Word)
    (magic : magicNumber = swappedMagic ↔ order = .little) (header : PacketHeader) :
    parsePacketHeader kraken magicNumber (header.encode order) = .ok header := by
  obtain ⟨tsSec, at₁, fix₁⟩ := order.getInt_encode kraken header.tsSec
    (order.encode header.tsUsec ++ (order.encode header.inclLen ++ order.encode header.origLen))
  obtain ⟨tsUsec, at₂, fix₂⟩ := order.getInt_encode kraken header.tsUsec
    (order.encode header.inclLen ++ order.encode header.origLen)
  obtain ⟨inclLen, at₃, fix₃⟩ := order.getInt_encode kraken header.inclLen
    (order.encode header.origLen)
  obtain ⟨origLen, at₄, fix₄⟩ := order.getInt_encode kraken header.origLen []
  rw [List.append_nil] at at₄
  have unfolded : parsePacketHeader kraken magicNumber (header.encode order) =
      .ok ⟨order.fix kraken tsSec, order.fix kraken tsUsec, order.fix kraken inclLen,
        order.fix kraken origLen⟩ := by
    simp only [parsePacketHeader, PacketHeader.encode, at₁, at₂, at₃, at₄, bind, Except.bind,
      magic, ByteOrder.fix]
    split <;> rfl
  rw [unfolded, fix₁, fix₂, fix₃, fix₄]

/-- A record that a pcap file can hold: the length word is that of the data. -/
structure PcapRecord where
  tsSec : Word
  tsUsec : Word
  origLen : Word
  data : Bytes
  bounded : data.length < 2 ^ 31

namespace PcapRecord

def packet (record : PcapRecord) : PcapPacket :=
  { packetHeader := ⟨record.tsSec, record.tsUsec, BitVec.ofNat 32 record.data.length,
      record.origLen⟩
    packetData := record.data }

def encode (order : ByteOrder) (record : PcapRecord) : Bytes :=
  record.packet.packetHeader.encode order ++ record.data

theorem inclLen_toNat (record : PcapRecord) :
    record.packet.packetHeader.inclLen.toNat = record.data.length := by
  have bounded := record.bounded
  simp only [packet, BitVec.toNat_ofNat]
  omega

theorem inclLen_nonneg (record : PcapRecord) :
    ¬ record.packet.packetHeader.inclLen.toInt < 0 := by
  have small : record.packet.packetHeader.inclLen.toNat < 2 ^ 31 := by
    rw [record.inclLen_toNat]
    exact record.bounded
  have nonneg := (Word.toInt_nonneg_iff _).mpr small
  omega

theorem encode_length (order : ByteOrder) (record : PcapRecord) :
    (record.encode order).length = 16 + record.data.length := by
  simp [encode]

end PcapRecord

/-- The stream object reads words in this byte order and `bytes` are left. Any
magic number other than the swapped one makes it read them as they stand. -/
structure Reads (order : ByteOrder) (bytes : Bytes) (stream : PcapFSDataInputStream) : Prop where
  isOpen : stream.is.closed = false
  content : stream.is.content = bytes
  magic : stream.globalHeader.magicNumber = swappedMagic ↔ order = .little

section GetPacket

variable (kraken : KrakenPcap) {order : ByteOrder} {stream : PcapFSDataInputStream}

theorem getPacket_of_short {bytes : Bytes} (reads : Reads order bytes stream)
    (short : bytes.length < 16) :
    ∃ after, stream.getPacket kraken = .stop .ioException after ∧ Reads order [] after := by
  obtain ⟨is, isOpen, content, read⟩ := readFully_spec 16 stream.is reads.isOpen
  rw [reads.content, if_neg (by omega)] at read
  refine ⟨{ stream with is }, ?_, ⟨isOpen, ?_, reads.magic⟩⟩
  · simp only [PcapFSDataInputStream.getPacket, readPacketHeader, read]
  · change is.content = []
    rw [content, reads.content, List.drop_eq_nil_of_le (by omega)]

private theorem readPacketHeader_encode {header : PacketHeader} {rest : Bytes}
    (reads : Reads order (header.encode order ++ rest) stream) :
    ∃ is, readPacketHeader kraken stream.globalHeader.magicNumber stream.is = (.ok header, is) ∧
      is.closed = false ∧ is.content = rest := by
  obtain ⟨is, isOpen, content, read⟩ := readFully_spec 16 stream.is reads.isOpen
  have sixteen := header.encode_length order
  rw [reads.content, if_pos (by simp), List.take_left' sixteen] at read
  rw [reads.content, List.drop_left' sixteen] at content
  refine ⟨is, ?_, isOpen, content⟩
  simp only [readPacketHeader, read, parsePacketHeader_encode kraken order _ reads.magic]

theorem getPacket_of_negative {header : PacketHeader} {rest : Bytes}
    (reads : Reads order (header.encode order ++ rest) stream)
    (negative : header.inclLen.toInt < 0) :
    ∃ after, stream.getPacket kraken = .stop .negativeArraySizeException after ∧
      Reads order rest after := by
  obtain ⟨is, readHeader, isOpen, content⟩ := readPacketHeader_encode kraken reads
  refine ⟨{ stream with is, offset := stream.offset + 16 }, ?_, ⟨isOpen, content, reads.magic⟩⟩
  simp only [PcapFSDataInputStream.getPacket, readHeader, readPacketData, negative, if_true]

private theorem getPacket_of_header {header : PacketHeader} {rest : Bytes}
    (reads : Reads order (header.encode order ++ rest) stream)
    (nonneg : ¬ header.inclLen.toInt < 0) :
    ∃ after, Reads order (rest.drop header.inclLen.toNat) after ∧
      stream.getPacket kraken =
        if header.inclLen.toNat ≤ rest.length then
          .item ⟨header, rest.take header.inclLen.toNat⟩ after
        else .stop .ioException after := by
  obtain ⟨is, readHeader, isOpen, content⟩ := readPacketHeader_encode kraken reads
  obtain ⟨last, lastOpen, lastContent, read⟩ := readFully_spec header.inclLen.toNat is isOpen
  rw [content] at lastContent read
  by_cases complete : header.inclLen.toNat ≤ rest.length
  · rw [if_pos complete] at read
    refine ⟨{ stream with is := last, offset := stream.offset + 16 + header.inclLen },
      ⟨lastOpen, lastContent, reads.magic⟩, ?_⟩
    simp only [PcapFSDataInputStream.getPacket, readHeader, readPacketData, nonneg, if_false,
      read, if_pos complete]
  · rw [if_neg complete] at read
    refine ⟨{ stream with is := last, offset := stream.offset + 16 },
      ⟨lastOpen, lastContent, reads.magic⟩, ?_⟩
    simp only [PcapFSDataInputStream.getPacket, readHeader, readPacketData, nonneg, if_false,
      read, if_neg complete]

theorem getPacket_of_truncated {header : PacketHeader} {rest : Bytes}
    (reads : Reads order (header.encode order ++ rest) stream)
    (nonneg : ¬ header.inclLen.toInt < 0) (truncated : rest.length < header.inclLen.toNat) :
    ∃ after, stream.getPacket kraken = .stop .ioException after ∧ Reads order [] after := by
  obtain ⟨after, readsAfter, pulled⟩ := getPacket_of_header kraken reads nonneg
  rw [if_neg (by omega)] at pulled
  rw [List.drop_eq_nil_of_le (by omega)] at readsAfter
  exact ⟨after, pulled, readsAfter⟩

theorem getPacket_of_record {record : PcapRecord} {rest : Bytes}
    (reads : Reads order (record.encode order ++ rest) stream) :
    ∃ after, stream.getPacket kraken = .item record.packet after ∧ Reads order rest after := by
  rw [PcapRecord.encode, List.append_assoc] at reads
  obtain ⟨after, readsAfter, pulled⟩ :=
    getPacket_of_header kraken reads record.inclLen_nonneg
  rw [record.inclLen_toNat] at readsAfter pulled
  rw [if_pos (by simp), List.take_left' rfl] at pulled
  rw [List.drop_left' rfl] at readsAfter
  exact ⟨after, pulled, readsAfter⟩

end GetPacket

/-- A pcap file: the magic number, the other twenty bytes of the global header
and the records, all in one byte order. -/
def pcapFile (order : ByteOrder) (fields : Bytes) (records : List PcapRecord) : Bytes :=
  order.encode nativeMagic ++ fields ++ records.flatMap (PcapRecord.encode order)

def InputStream.fresh (content : Bytes) (grant : Nat → Nat) : InputStream :=
  { content, grant, calls := 0, closed := false }

private theorem parseGlobalHeader_eq (bytes fields : Bytes) (four : bytes.length = 4)
    (twenty : fields.length = 20) :
    ∃ header, parseGlobalHeader (bytes ++ fields) = .ok header ∧
      getInt bytes = .ok (header.magicNumber, []) := by
  match bytes, four, fields, twenty with
  | [_, _, _, _], _, [_, _, _, _, _, _, _, _, _, _, _, _, _, _, _, _, _, _, _, _], _ =>
      exact ⟨_, rfl, rfl⟩

theorem new_of_short (kraken : KrakenPcap) (content : Bytes) (short : content.length < 24)
    (grant : Nat → Nat) (length : Int) :
    PcapFSDataInputStream.new kraken (.fresh content grant) length = .error .ioException := by
  obtain ⟨is, -, -, read⟩ := readFully_spec 24 (.fresh content grant) rfl
  rw [if_neg (by change ¬ 24 ≤ content.length; omega)] at read
  simp only [PcapFSDataInputStream.new, readGlobalHeader, read]

/-- With a whole global header the constructor succeeds, whatever the magic
number is; only the swapped one changes how the records are read. -/
theorem new_of_header (kraken : KrakenPcap) (bytes fields rest : Bytes)
    (four : bytes.length = 4) (twenty : fields.length = 20) (grant : Nat → Nat) (length : Int)
    (magic : Word) (magicAt : getInt bytes = .ok (magic, [])) (order : ByteOrder)
    (agrees : magic = swappedMagic ↔ order = .little) :
    ∃ stream, PcapFSDataInputStream.new kraken (.fresh (bytes ++ fields ++ rest) grant) length =
        .ok stream ∧ Reads order rest stream := by
  have prefixLength : (bytes ++ fields).length = 24 := by
    simp [four, twenty]
  obtain ⟨is, isOpen, content, read⟩ := readFully_spec 24
    (.fresh (bytes ++ fields ++ rest) grant) rfl
  change is.content = (bytes ++ fields ++ rest).drop 24 at content
  change readFully 24 _ = if 24 ≤ (bytes ++ fields ++ rest).length then
    (.ok ((bytes ++ fields ++ rest).take 24), is) else _ at read
  rw [List.drop_left' prefixLength] at content
  rw [if_pos (by rw [List.length_append]; omega), List.take_left' prefixLength] at read
  obtain ⟨header, parsed, headerMagic⟩ := parseGlobalHeader_eq bytes fields four twenty
  rw [magicAt] at headerMagic
  obtain rfl : magic = header.magicNumber := by
    cases headerMagic
    rfl
  by_cases swapped : header.magicNumber = swappedMagic
  · refine ⟨⟨kraken.swapByteOrder header, is, length, 0⟩, ?_, ⟨isOpen, content, ?_⟩⟩
    · simp only [PcapFSDataInputStream.new, readGlobalHeader, read, parsed, if_pos swapped]
    · change (kraken.swapByteOrder header).magicNumber = swappedMagic ↔ _
      rw [kraken.swapByteOrder_magic]
      exact agrees
  · refine ⟨⟨header, is, length, 0⟩, ?_, ⟨isOpen, content, agrees⟩⟩
    simp only [PcapFSDataInputStream.new, readGlobalHeader, read, parsed, if_neg swapped]

theorem new_pcapFile (kraken : KrakenPcap) (order : ByteOrder) (fields rest : Bytes)
    (twenty : fields.length = 20) (grant : Nat → Nat) (length : Int) :
    ∃ stream, PcapFSDataInputStream.new kraken
        (.fresh (order.encode nativeMagic ++ fields ++ rest) grant) length = .ok stream ∧
      Reads order rest stream := by
  apply new_of_header kraken _ fields rest (by simp) twenty grant length order.magic
  · cases order with
    | big => exact congrArg (fun word => Except.ok (word, [])) (Word.ofBytes_byteAt nativeMagic)
    | little =>
        have swapped : nativeMagic.reverseBytes = swappedMagic := by decide
        exact congrArg (fun word => Except.ok (word, [])) swapped
  · exact order.magic_eq_swappedMagic_iff

theorem advances_records (kraken : KrakenPcap) (order : ByteOrder) (records : List PcapRecord)
    {tail : Bytes} {stream : PcapFSDataInputStream}
    (reads : Reads order (records.flatMap (PcapRecord.encode order) ++ tail) stream) :
    ∃ after, Advances (PcapFSDataInputStream.getPacket kraken) stream
      (records.map PcapRecord.packet) after ∧ Reads order tail after := by
  induction records generalizing stream with
  | nil => exact ⟨stream, .refl, reads⟩
  | cons record records ih =>
      rw [List.flatMap_cons, List.append_assoc] at reads
      obtain ⟨middle, pulled, readsMiddle⟩ := getPacket_of_record kraken reads
      obtain ⟨after, moved, readsAfter⟩ := ih readsMiddle
      exact ⟨after, .item pulled moved, readsAfter⟩

/-- Reading a well-formed file returns its records, whichever byte order it is
in and however the stream portions its reads, and then throws `IOException`. -/
theorem getPacket_pcapFile (kraken : KrakenPcap) (order : ByteOrder) (fields : Bytes)
    (twenty : fields.length = 20) (records : List PcapRecord) (grant : Nat → Nat)
    (length : Int) :
    ∃ stream final,
      PcapFSDataInputStream.new kraken (.fresh (pcapFile order fields records) grant) length =
        .ok stream ∧
      Yields (PcapFSDataInputStream.getPacket kraken) stream
        (records.map PcapRecord.packet) .ioException final := by
  obtain ⟨stream, opened, reads⟩ := new_pcapFile kraken order fields
    (records.flatMap (PcapRecord.encode order)) twenty grant length
  rw [← List.append_nil (records.flatMap _)] at reads
  obtain ⟨after, moved, readsAfter⟩ := advances_records kraken order records reads
  obtain ⟨final, pulled, -⟩ := getPacket_of_short kraken readsAfter (by simp)
  have run := moved.yields (.stop pulled)
  rw [List.append_nil] at run
  exact ⟨stream, final, opened, run⟩

def documentedKraken : KrakenPcap :=
  { swap := Word.reverseBytes
    swapByteOrder := fun header =>
      { header with
        tz := header.tz.reverseBytes
        sigfigs := header.sigfigs.reverseBytes
        snaplen := header.snaplen.reverseBytes
        network := header.network.reverseBytes }
    swap_reverses := fun _ => rfl
    swapByteOrder_magic := fun _ => rfl }

/-- A little endian file with one record of two bytes, read a byte at a time. -/
theorem getPacket_pcapFile_single : ∃ stream final,
    PcapFSDataInputStream.new documentedKraken
        (.fresh (pcapFile .little (List.replicate 20 0) [⟨1, 2, 60, [65, 66], by decide⟩])
          fun _ => 1) 66 = .ok stream ∧
      Yields (PcapFSDataInputStream.getPacket documentedKraken) stream
        [⟨⟨1, 2, 2, 60⟩, [65, 66]⟩] .ioException final :=
  getPacket_pcapFile documentedKraken .little (List.replicate 20 0) (by decide)
    [⟨1, 2, 60, [65, 66], by decide⟩] (fun _ => 1) 66

end Packetpig
