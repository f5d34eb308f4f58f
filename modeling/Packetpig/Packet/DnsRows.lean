/-
The rows that the DNS packet readers return for a capture.

A message without questions and answers leaves the queue empty, and then the
source closes the stream and returns false. So the rows of a capture are
complete when no such message stands before another packet, and otherwise they
end at the first one.
-/

import Packetpig.Packet.DnsPacketRecordReader

namespace Packetpig

open Text

/-- The IPv4 packet and the DNS message that a frame carries over UDP. -/
def dnsMessage (parseMessage : Bytes → Option DnsMessage) (frame : Frame) :
    Option (Ipv4Packet × DnsMessage) :=
  match frame with
  | .ipv4 packet =>
      match packet.transport with
      | .udp udp => (parseMessage udp.data.unread).map (packet, ·)
      | _ => none
  | .other => none

/-- The frame carries a message with no question and no answer. -/
def Rowless (parseMessage : Bytes → Option DnsMessage) (frame : Frame) : Prop :=
  ∃ packet message, dnsMessage parseMessage frame = some (packet, message) ∧
    message.question = [] ∧ message.answer = []

section PacketRows

variable {ρ : Type} (messageRows : Ipv4Packet → DnsMessage → List ρ)

def packetRows (decode : PcapPacket → Frame) (parseMessage : Bytes → Option DnsMessage)
    (packet : PcapPacket) : List (Keyed ρ) :=
  match dnsMessage parseMessage (decode packet) with
  | some (ip, message) => (messageRows ip message).map (Keyed.mk (packetKey packet))
  | none => []

/-- The callbacks of a reader class keep what its rows need. -/
structure DnsColumns.Lawful (columns : DnsColumns ρ) : Prop where
  parsed : ∀ parseMessage packet udp fields message, parseMessage udp.data.unread = some message →
    (columns.udpDecoder parseMessage packet udp fields).valid = true ∧
      (columns.udpDecoder parseMessage packet udp fields).dns = some message ∧
      columns.rows (columns.udpDecoder parseMessage packet udp fields) message =
        messageRows packet message
  failed : ∀ parseMessage packet udp fields, parseMessage udp.data.unread = none →
    (columns.udpDecoder parseMessage packet udp fields).valid = false
  rowless : ∀ packet message,
    messageRows packet message = [] ↔ message.question = [] ∧ message.answer = []

end PacketRows

namespace DnsPacketRecordReader

def messageRows (_ : Ipv4Packet) (message : DnsMessage) : List DnsRow :=
  message.question.map (questionRow message) ++ message.answer.map (answerRow message)

theorem columns_lawful : columns.Lawful messageRows where
  parsed := by
    intro parseMessage packet udp fields message parsed
    simp only [columns, DnsFields.process, parsed, messageRows, and_self]
  failed := by
    intro parseMessage packet udp fields failed
    simp only [columns, DnsFields.process, failed, DnsFields.clear]
  rowless := by
    intro packet message
    simp only [messageRows, List.append_eq_nil_iff, List.map_eq_nil_iff]

end DnsPacketRecordReader

namespace DnsPacketAllRecordReader

def messageRows (packet : Ipv4Packet) (message : DnsMessage) : List DnsAllRow :=
  let fields : DnsFields :=
    { srcIP := some packet.sourceAddress, dstIP := some packet.destinationAddress }
  message.question.map (questionRow fields message) ++
    message.answer.map (answerRow fields message)

theorem columns_lawful : columns.Lawful messageRows where
  parsed := by
    intro parseMessage packet udp fields message parsed
    refine ⟨?_, ?_, rfl⟩
    · simp only [columns, udpDecoder, DnsFields.process, parsed]
    · simp only [columns, udpDecoder, DnsFields.process, parsed]
  failed := by
    intro parseMessage packet udp fields failed
    simp only [columns, udpDecoder, DnsFields.process, failed, DnsFields.clear]
  rowless := by
    intro packet message
    simp only [messageRows, List.append_eq_nil_iff, List.map_eq_nil_iff]

end DnsPacketAllRecordReader

namespace DnsReader

section Calls

variable {σ ρ : Type} (input : PcapInputStream σ) {columns : DnsColumns ρ}
  {messageRows : Ipv4Packet → DnsMessage → List ρ}
  (decode : PcapPacket → Frame) (parseMessage : Bytes → Option DnsMessage)

private theorem valid_decodeFrame_of_none (lawful : columns.Lawful messageRows) (frame : Frame)
    (fields : DnsFields)
    (invalid : fields.valid = false) (noMessage : dnsMessage parseMessage frame = none) :
    (decodeFrame columns parseMessage frame fields).valid = false := by
  cases frame with
  | other => exact invalid
  | ipv4 packet =>
      cases transport : packet.transport with
      | tcp tcp => simpa only [decodeFrame, transport] using invalid
      | other => simpa only [decodeFrame, transport] using invalid
      | udp udp =>
          simp only [dnsMessage, transport, Option.map_eq_none_iff] at noMessage
          simpa only [decodeFrame, transport] using lawful.failed _ packet udp fields noMessage

private theorem decodeFrame_of_some (lawful : columns.Lawful messageRows) (frame : Frame)
    (fields : DnsFields) (ip : Ipv4Packet) (message : DnsMessage)
    (found : dnsMessage parseMessage frame = some (ip, message)) :
    (decodeFrame columns parseMessage frame fields).valid = true ∧
      (decodeFrame columns parseMessage frame fields).dns = some message ∧
      columns.rows (decodeFrame columns parseMessage frame fields) message =
        messageRows ip message := by
  cases frame with
  | other => cases found
  | ipv4 packet =>
      cases transport : packet.transport with
      | tcp tcp => simp only [dnsMessage, transport, reduceCtorEq] at found
      | other => simp only [dnsMessage, transport, reduceCtorEq] at found
      | udp udp =>
          simp only [dnsMessage, transport, Option.map_eq_some_iff] at found
          rcases found with ⟨parsed, parsedHere, same⟩
          cases same
          simpa only [decodeFrame, transport] using
            lawful.parsed _ ip udp fields message parsedHere

private theorem seek_fuel (fuel : Nat) :
    ∀ (fuel' : Nat) (reader : DnsReader σ ρ), input.remaining reader.is < fuel →
      input.remaining reader.is < fuel' →
      seek input columns decode parseMessage fuel reader =
        seek input columns decode parseMessage fuel' reader := by
  induction fuel with
  | zero =>
      intro fuel' reader enough
      omega
  | succ fuel ih =>
      intro fuel' reader enough enough'
      cases fuel' with
      | zero => omega
      | succ fuel' =>
          cases pulled : input.getPacket reader.is with
          | stop exception is => simp only [seek, pulled]
          | item packet is =>
              have less := input.remaining_lt _ _ _ pulled
              simp only [seek, pulled]
              split
              · rfl
              · exact ih fuel' _ (by change input.remaining is < _; omega)
                  (by change input.remaining is < _; omega)

theorem nextKeyValue_skip (lawful : columns.Lawful messageRows) {fields : DnsFields}
    (key : Int) {is after : σ} {packet : PcapPacket} (invalid : fields.valid = false)
    (pulled : input.getPacket is = .item packet after)
    (noMessage : dnsMessage parseMessage (decode packet) = none) :
    ∃ fields', fields'.valid = false ∧
      nextKeyValue input columns decode parseMessage ⟨[], fields, key, is⟩ =
        nextKeyValue input columns decode parseMessage ⟨[], fields', key, after⟩ := by
  have still := valid_decodeFrame_of_none parseMessage lawful _ fields invalid noMessage
  refine ⟨_, still, ?_⟩
  have less := input.remaining_lt _ _ _ pulled
  have step : seek input columns decode parseMessage (input.remaining is + 1)
        ⟨[], fields, key, is⟩ =
      seek input columns decode parseMessage (input.remaining after + 1)
        ⟨[], decodeFrame columns parseMessage (decode packet) fields, key, after⟩ := by
    unfold seek
    simp only [pulled, still, Bool.false_eq_true, if_false]
    exact seek_fuel input decode parseMessage _ _ _ less (Nat.lt_succ_self _)
  simp only [nextKeyValue, step]

theorem nextKeyValue_message (lawful : columns.Lawful messageRows) (fields : DnsFields)
    (key : Int) {is after : σ} {packet : PcapPacket} {ip : Ipv4Packet} {message : DnsMessage}
    (pulled : input.getPacket is = .item packet after)
    (found : dnsMessage parseMessage (decode packet) = some (ip, message)) :
    nextKeyValue input columns decode parseMessage ⟨[], fields, key, is⟩ =
      match messageRows ip message with
      | tuple :: tupleQueue =>
          .item ⟨packetKey packet, tuple⟩ ⟨tupleQueue, {}, packetKey packet, after⟩
      | [] => .stop .returnedFalse ⟨[], {}, packetKey packet, input.close after⟩ := by
  obtain ⟨valid, dns, rows⟩ :=
    decodeFrame_of_some parseMessage lawful _ fields ip message found
  have step : seek input columns decode parseMessage (input.remaining is + 1)
        ⟨[], fields, key, is⟩ =
      (.ok packet,
        ⟨[], decodeFrame columns parseMessage (decode packet) fields, key, after⟩) := by
    unfold seek
    simp only [pulled, valid, if_true]
  cases tuples : messageRows ip message with
  | nil => simp only [nextKeyValue, step, dns, rows, DnsFields.clear, tuples]
  | cons tuple tupleQueue => simp only [nextKeyValue, step, dns, rows, DnsFields.clear, tuples]

theorem nextKeyValue_stop (fields : DnsFields) (key : Int) {is after : σ}
    {exception : JavaException} (pulled : input.getPacket is = .stop exception after) :
    nextKeyValue input columns decode parseMessage ⟨[], fields, key, is⟩ =
      if exception = .ioException then
        .stop .returnedFalse ⟨[], {}, key, input.close after⟩
      else .stop (.threw exception) ⟨[], fields, key, after⟩ := by
  cases exception with
  | ioException =>
      simp only [nextKeyValue, seek, pulled, DnsFields.clear, if_true]
  | _ => simp only [nextKeyValue, seek, pulled, reduceCtorEq, if_false]

end Calls

section Runs

variable {σ ρ : Type} (input : PcapInputStream σ) {columns : DnsColumns ρ}
  {messageRows : Ipv4Packet → DnsMessage → List ρ}
  (decode : PcapPacket → Frame) (parseMessage : Bytes → Option DnsMessage)

private theorem yields_of_advances (lawful : columns.Lawful messageRows) {is after : σ}
    {packets : List PcapPacket} (moved : Advances input.getPacket is packets after)
    (rowful : ∀ packet ∈ packets, ¬ Rowless parseMessage (decode packet))
    {items : List (Keyed ρ)} {reason : Ending} {stream : σ}
    (rest : ∀ fields key, fields.valid = false →
      ∃ last, Yields (nextKeyValue input columns decode parseMessage) ⟨[], fields, key, after⟩
        items reason last ∧ last.is = stream) :
    ∀ fields key, fields.valid = false →
      ∃ last, Yields (nextKeyValue input columns decode parseMessage) ⟨[], fields, key, is⟩
        (packets.flatMap (packetRows messageRows decode parseMessage) ++ items) reason last ∧
          last.is = stream := by
  induction moved with
  | refl => exact rest
  | @item state middle after packet packets pulled _ ih =>
      intro fields key invalid
      have later := ih (fun other member => rowful other (List.mem_cons_of_mem _ member)) rest
      rw [List.flatMap_cons, List.append_assoc]
      cases found : dnsMessage parseMessage (decode packet) with
      | none =>
          obtain ⟨fields', invalid', skip⟩ :=
            nextKeyValue_skip input decode parseMessage lawful key invalid pulled found
          obtain ⟨last, run, atStream⟩ := later fields' key invalid'
          refine ⟨last, ?_, atStream⟩
          have noRows : packetRows messageRows decode parseMessage packet = [] := by
            simp only [packetRows, found]
          rw [noRows, List.nil_append]
          exact run.congr_state skip
      | some parts =>
          rcases parts with ⟨ip, message⟩
          have call :=
            nextKeyValue_message input decode parseMessage lawful fields key pulled found
          obtain ⟨last, run, atStream⟩ := later {} (packetKey packet) rfl
          refine ⟨last, ?_, atStream⟩
          simp only [packetRows, found]
          cases rows : messageRows ip message with
          | nil =>
              have rowless := (lawful.rowless ip message).mp rows
              exact absurd ⟨ip, message, found, rowless⟩ (rowful packet List.mem_cons_self)
          | cons tuple tupleQueue =>
              rw [rows] at call
              let queued (tupleQueue : List ρ) : DnsReader σ ρ :=
                ⟨tupleQueue, {}, packetKey packet, middle⟩
              exact .item call
                (Yields.of_queue (Keyed.mk (packetKey packet)) queued run (fun _ _ => rfl)
                  tupleQueue)

theorem yields_rows (lawful : columns.Lawful messageRows) {is final : σ}
    {packets : List PcapPacket} {exception : JavaException}
    (run : input.Delivers is packets exception final)
    (rowful : ∀ packet ∈ packets, ¬ Rowless parseMessage (decode packet)) :
    ∃ last, Yields (nextKeyValue input columns decode parseMessage) (initializeReader is)
      (packets.flatMap (packetRows messageRows decode parseMessage))
      (if exception = .ioException then .returnedFalse else .threw exception) last ∧
        last.is = if exception = .ioException then input.close final else final := by
  rw [← List.append_nil packets] at run
  obtain ⟨after, moved, stops⟩ := Advances.of_yields run
  cases stops with
  | stop pulled =>
      have stopped : ∀ fields key, fields.valid = false →
          ∃ last, Yields (nextKeyValue input columns decode parseMessage) ⟨[], fields, key, after⟩
            [] (if exception = .ioException then .returnedFalse else .threw exception) last ∧
              last.is = if exception = .ioException then input.close final else final := by
        intro fields key _
        have call : nextKeyValue input columns decode parseMessage ⟨[], fields, key, after⟩ = _ :=
          nextKeyValue_stop input decode parseMessage fields key pulled
        by_cases checked : exception = .ioException
        · simp only [checked, if_true] at call ⊢
          exact ⟨_, .stop call, rfl⟩
        · simp only [checked, if_false] at call ⊢
          exact ⟨_, .stop call, rfl⟩
      have ends := yields_of_advances input decode parseMessage lawful moved rowful stopped
      rw [List.append_nil] at ends
      exact ends {} 0 rfl

theorem yields_rows_of_rowless (lawful : columns.Lawful messageRows) {is after : σ}
    {before : List PcapPacket} {packet : PcapPacket}
    (moved : Advances input.getPacket is (before ++ [packet]) after)
    (rowful : ∀ packet ∈ before, ¬ Rowless parseMessage (decode packet))
    (rowless : Rowless parseMessage (decode packet)) :
    ∃ last, Yields (nextKeyValue input columns decode parseMessage) (initializeReader is)
      (before.flatMap (packetRows messageRows decode parseMessage)) .returnedFalse last ∧
        last.is = input.close after := by
  obtain ⟨middle, moved, pulled⟩ := moved.of_append
  cases pulled with
  | item pulled rest =>
      cases rest
      have stopped : ∀ fields key, fields.valid = false →
          ∃ last, Yields (nextKeyValue input columns decode parseMessage) ⟨[], fields, key, middle⟩
            [] .returnedFalse last ∧ last.is = input.close after := by
        intro fields key _
        rcases rowless with ⟨ip, message, found, isRowless⟩
        have call := nextKeyValue_message input decode parseMessage lawful fields key pulled found
        rw [(lawful.rowless ip message).mpr isRowless] at call
        exact ⟨_, .stop call, rfl⟩
      have ends := yields_of_advances input decode parseMessage lawful moved rowful stopped
      rw [List.append_nil] at ends
      exact ends {} 0 rfl

end Runs

/-! ### Complete captures -/

section Complete

variable {ρ : Type} {columns : DnsColumns ρ} {messageRows : Ipv4Packet → DnsMessage → List ρ}
  (decode : PcapPacket → Frame) (parseMessage : Bytes → Option DnsMessage)

private theorem packetRows_of_rowless (lawful : columns.Lawful messageRows) {packet : PcapPacket}
    (rowless : Rowless parseMessage (decode packet)) :
    packetRows messageRows decode parseMessage packet = [] := by
  rcases rowless with ⟨ip, message, found, isRowless⟩
  simp only [packetRows, found, (lawful.rowless ip message).mpr isRowless, List.map_nil]

private theorem first_rowless (packets : List PcapPacket) :
    (∀ packet ∈ packets, ¬ Rowless parseMessage (decode packet)) ∨
      ∃ before packet after, packets = before ++ packet :: after ∧
        (∀ packet ∈ before, ¬ Rowless parseMessage (decode packet)) ∧
        Rowless parseMessage (decode packet) := by
  induction packets with
  | nil => exact .inl (fun _ member => absurd member List.not_mem_nil)
  | cons head tail ih =>
      by_cases here : Rowless parseMessage (decode head)
      · exact .inr ⟨[], head, tail, rfl, fun _ member => absurd member List.not_mem_nil, here⟩
      · rcases ih with none | ⟨before, packet, after, rfl, none, rowless⟩
        · exact .inl (List.forall_mem_cons.mpr ⟨here, none⟩)
        · exact .inr ⟨head :: before, packet, after, rfl,
            List.forall_mem_cons.mpr ⟨here, none⟩, rowless⟩

/-- Up to its first false the reader returns the rows of all packets, and it is
the end of the packets that made it return false. -/
def ReadsAll (next : DnsReader Capture ρ → Pull (DnsReader Capture ρ) (Keyed ρ) Ending)
    (rows : PcapPacket → List (Keyed ρ)) (packets : List PcapPacket) : Prop :=
  ∃ last, Yields next (initializeReader (Capture.fresh packets)) (packets.flatMap rows)
    .returnedFalse last ∧ last.is.packets = []

def RowlessLast (packets : List PcapPacket) : Prop :=
  ∀ before packet after, packets = before ++ packet :: after →
    Rowless parseMessage (decode packet) → after = []

theorem readsAll_iff (lawful : columns.Lawful messageRows) (packets : List PcapPacket) :
    ReadsAll (nextKeyValue captureInputStream columns decode parseMessage)
        (packetRows messageRows decode parseMessage) packets ↔
      RowlessLast decode parseMessage packets := by
  rcases first_rowless decode parseMessage packets with
    none | ⟨before, packet, after, rfl, none, rowless⟩
  · have complete : ReadsAll (nextKeyValue captureInputStream columns decode parseMessage)
        (packetRows messageRows decode parseMessage) packets := by
      obtain ⟨last, run, atEnd⟩ := yields_rows captureInputStream decode parseMessage lawful
        (Capture.delivers_fresh packets) none
      refine ⟨last, run, ?_⟩
      rw [atEnd]
      rfl
    apply iff_of_true complete
    intro before packet after equal rowless
    subst equal
    exact absurd rowless (none packet (by simp))
  · have moved := Capture.advances_fresh (before ++ [packet]) after
    rw [List.append_assoc, List.singleton_append] at moved
    obtain ⟨last, run, atEnd⟩ :=
      yields_rows_of_rowless captureInputStream decode parseMessage lawful moved none rowless
    constructor
    · intro found before' packet' after' same rowless'
      rcases found with ⟨last', run', nothingLeft⟩
      obtain ⟨-, -, rfl⟩ := run.unique run'
      rw [atEnd] at nothingLeft
      change after = [] at nothingLeft
      subst nothingLeft
      -- The first rowless packet is the last of all, so the given one is it.
      rcases List.eq_nil_or_concat' after' with rfl | ⟨later, final, rfl⟩
      · rfl
      · rw [← List.cons_append, ← List.append_assoc] at same
        obtain ⟨rfl, -⟩ := List.append_inj' same rfl
        exact absurd rowless' (none packet' (by simp))
    · intro rowlessLast
      have nothingLeft := rowlessLast before packet after rfl rowless
      subst nothingLeft
      refine ⟨last, ?_, by rw [atEnd]; rfl⟩
      rw [List.flatMap_append, List.flatMap_singleton,
        packetRows_of_rowless decode parseMessage lawful rowless, List.append_nil]
      exact run

def Rowful (packet : PcapPacket) : Prop :=
  ∃ ip message, dnsMessage parseMessage (decode packet) = some (ip, message) ∧
    ¬ (message.question = [] ∧ message.answer = [])

def RowsFirst (packets : List PcapPacket) : Prop :=
  ∀ before packet after, packets = before ++ packet :: after →
    Rowless parseMessage (decode packet) → ∀ later ∈ after, ¬ Rowful decode parseMessage later

private theorem packetRows_eq_nil_iff (lawful : columns.Lawful messageRows)
    (packet : PcapPacket) :
    packetRows messageRows decode parseMessage packet = [] ↔
      ¬ Rowful decode parseMessage packet := by
  cases found : dnsMessage parseMessage (decode packet) with
  | none => simp [packetRows, Rowful, found]
  | some parts =>
      rcases parts with ⟨ip, message⟩
      simp [packetRows, Rowful, found, lawful.rowless ip message]

/-- On a stream that ends with `IOException` the rows of all its packets are
returned exactly when a message without rows cuts off no rows. -/
theorem yields_all_iff {σ : Type} (input : PcapInputStream σ) (lawful : columns.Lawful messageRows)
    {is final : σ} {packets : List PcapPacket}
    (run : input.Delivers is packets .ioException final) :
    (∃ last, Yields (nextKeyValue input columns decode parseMessage) (initializeReader is)
      (packets.flatMap (packetRows messageRows decode parseMessage)) .returnedFalse last) ↔
      RowsFirst decode parseMessage packets := by
  rcases first_rowless decode parseMessage packets with
    none | ⟨before, packet, after, rfl, none, rowless⟩
  · obtain ⟨last, all, -⟩ := yields_rows input decode parseMessage lawful run none
    apply iff_of_true ⟨last, all⟩
    intro before packet after equal rowless
    subst equal
    exact absurd rowless (none packet (by simp))
  · have noRows := packetRows_of_rowless decode parseMessage lawful rowless
    rw [← List.singleton_append, ← List.append_assoc] at run
    obtain ⟨stopped, moved, -⟩ := Advances.of_yields run
    obtain ⟨last, cut, -⟩ :=
      yields_rows_of_rowless input decode parseMessage lawful moved none rowless
    constructor
    · intro found before' packet' after' same rowless' later member
      rcases found with ⟨last', all⟩
      have complete := (cut.unique all).1
      rw [List.flatMap_append, List.flatMap_cons, noRows, List.nil_append,
        List.self_eq_append_right, List.flatMap_eq_nil_iff] at complete
      -- Whatever follows the given packet follows the first rowless one.
      have behind : later ∈ after := by
        rcases List.append_eq_append_iff.mp same with ⟨gap, rfl, tail⟩ | ⟨gap, rfl, tail⟩
        · cases gap with
          | nil =>
              obtain ⟨-, rfl⟩ := List.cons.inj tail
              exact member
          | cons first gap =>
              obtain ⟨-, rfl⟩ := List.cons.inj tail
              exact List.mem_append_right _ (List.mem_cons_of_mem _ member)
        · cases gap with
          | nil =>
              obtain ⟨-, rfl⟩ := List.cons.inj tail
              exact member
          | cons first gap =>
              obtain ⟨rfl, -⟩ := List.cons.inj tail
              exact absurd rowless' (none _ (by simp))
      exact (packetRows_eq_nil_iff decode parseMessage lawful later).mp (complete later behind)
    · intro rowsFirst
      have nothing : after.flatMap (packetRows messageRows decode parseMessage) = [] := by
        rw [List.flatMap_eq_nil_iff]
        intro later member
        exact (packetRows_eq_nil_iff decode parseMessage lawful later).mpr
          (rowsFirst before packet after rfl rowless later member)
      refine ⟨last, ?_⟩
      rw [List.flatMap_append, List.flatMap_cons, noRows, nothing, List.nil_append,
        List.append_nil]
      exact cut

end Complete

end DnsReader

/-- Both readers deliver a capture completely exactly when no packet follows a
DNS message that has neither question nor answer. -/
theorem dns_readers_complete_iff (decode : PcapPacket → Frame)
    (parseMessage : Bytes → Option DnsMessage) (packets : List PcapPacket) :
    (DnsReader.ReadsAll (DnsPacketRecordReader.nextKeyValue captureInputStream decode parseMessage)
        (packetRows DnsPacketRecordReader.messageRows decode parseMessage) packets ↔
      DnsReader.RowlessLast decode parseMessage packets) ∧
    (DnsReader.ReadsAll
        (DnsPacketAllRecordReader.nextKeyValue captureInputStream decode parseMessage)
        (packetRows DnsPacketAllRecordReader.messageRows decode parseMessage) packets ↔
      DnsReader.RowlessLast decode parseMessage packets) :=
  ⟨DnsReader.readsAll_iff decode parseMessage DnsPacketRecordReader.columns_lawful packets,
    DnsReader.readsAll_iff decode parseMessage DnsPacketAllRecordReader.columns_lawful packets⟩

def datagram (payload : Bytes) : PcapPacket :=
  { packetHeader := ⟨0, 0, 0, 0⟩, packetData := payload }

def datagramBuffer (payload : Bytes) (short : payload.length < 2 ^ 16) (position : Nat)
    (inHeaders : position ≤ 28) : Buffer where
  buffers := [List.replicate 28 0, payload]
  position
  inside := by
    simp
    omega
  small := by
    simp
    omega

def decodeDatagram (packet : PcapPacket) : Frame :=
  if short : packet.packetData.length < 2 ^ 16 then
    .ipv4
      { sourceAddress := []
        destinationAddress := []
        l2Header := ethernetHeader
        ihl := 20
        totalLength := 28 + packet.packetData.length
        data := datagramBuffer packet.packetData short 20 (by omega)
        transport := .udp
          { sourcePort := 53
            destinationPort := 53
            length := 8 + packet.packetData.length
            data := datagramBuffer packet.packetData short 28 (by omega)
            headerRead := Nat.le_add_left 8 20 }
        l2Length := ethernetHeader_length
        small := by
          simp [datagramBuffer, Buffer.bytes]
          omega }
  else .other

def parseShort (payload : Bytes) : Option DnsMessage :=
  if payload.length < 12 then none
  else if payload.length = 12 then some ⟨0, false, [], []⟩
  else some ⟨0, false, [⟨payload.drop 12, 1, 1, 0, .other⟩], []⟩

/-- A header alone in front of a question: the question is never returned. -/
theorem header_only_ends_run :
    ¬ DnsReader.ReadsAll
        (DnsPacketRecordReader.nextKeyValue captureInputStream decodeDatagram parseShort)
        (packetRows DnsPacketRecordReader.messageRows decodeDatagram parseShort)
        [datagram (List.replicate 12 0), datagram (List.replicate 13 0)] := by
  intro found
  rcases found with ⟨last, run, -⟩
  have ended : DnsPacketRecordReader.nextKeyValue captureInputStream decodeDatagram parseShort
      (DnsReader.initializeReader
        (Capture.fresh [datagram (List.replicate 12 0), datagram (List.replicate 13 0)])) =
      .stop .returnedFalse
        ⟨[], {}, 0, captureInputStream.close
          (Capture.fresh [datagram (List.replicate 13 0)])⟩ := rfl
  have rows := (run.unique (.stop ended)).1
  exact absurd rows (by decide)

end Packetpig
