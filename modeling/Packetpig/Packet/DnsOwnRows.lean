/-
Where the values in a row of the DNS readers come from: over any number of
calls, whatever they answer, the rows returned so far and those still queued are
the rows of the packets pulled so far.
-/

import Packetpig.Packet.DnsRows

namespace Packetpig

open Text

namespace DnsReader

section Calls

variable {σ ρ : Type} (input : PcapInputStream σ) {columns : DnsColumns ρ}
  {messageRows : Ipv4Packet → DnsMessage → List ρ}
  (decode : PcapPacket → Frame) (parseMessage : Bytes → Option DnsMessage)

/-- What a call does once it has skipped the packets without a message. -/
inductive Answer (messageRows : Ipv4Packet → DnsMessage → List ρ) (key : Int) (is : σ) :
    Pull (DnsReader σ ρ) (Keyed ρ) Ending → Prop
  | row {packet : PcapPacket} {after : σ} (tuple : ρ) (tupleQueue : List ρ)
      (pulled : input.getPacket is = .item packet after)
      (rows : packetRows messageRows decode parseMessage packet =
        (tuple :: tupleQueue).map (Keyed.mk (packetKey packet))) :
      Answer messageRows key is
        (.item ⟨packetKey packet, tuple⟩ ⟨tupleQueue, {}, packetKey packet, after⟩)
  | rowless {packet : PcapPacket} {after : σ} (pulled : input.getPacket is = .item packet after)
      (rows : packetRows messageRows decode parseMessage packet = []) :
      Answer messageRows key is
        (.stop .returnedFalse ⟨[], {}, packetKey packet, input.close after⟩)
  | ended {after : σ} (pulled : input.getPacket is = .stop .ioException after) :
      Answer messageRows key is (.stop .returnedFalse ⟨[], {}, key, input.close after⟩)
  | threw {exception : JavaException} {after : σ} {fields : DnsFields}
      (invalid : fields.valid = false) (pulled : input.getPacket is = .stop exception after) :
      Answer messageRows key is (.stop (.threw exception) ⟨[], fields, key, after⟩)

theorem exists_answer (lawful : columns.Lawful messageRows) (key : Int) (is : σ) :
    ∀ fields : DnsFields, fields.valid = false →
      ∃ skipped middle, Advances input.getPacket is skipped middle ∧
        skipped.flatMap (packetRows messageRows decode parseMessage) = [] ∧
        Answer input decode parseMessage messageRows key middle
          (nextKeyValue input columns decode parseMessage ⟨[], fields, key, is⟩) := by
  induction bound : input.remaining is using Nat.strongRecOn generalizing is with
  | ind size ih =>
      intro fields invalid
      cases pulled : input.getPacket is with
      | stop exception after =>
          refine ⟨[], is, .refl, rfl, ?_⟩
          rw [nextKeyValue_stop input decode parseMessage fields key pulled]
          split
          · rename_i checked
            subst checked
            exact .ended pulled
          · exact .threw invalid pulled
      | item packet after =>
          cases found : dnsMessage parseMessage (decode packet) with
          | none =>
              obtain ⟨fields', invalid', skip⟩ :=
                nextKeyValue_skip input decode parseMessage lawful key invalid pulled found
              obtain ⟨skipped, middle, moved, noRows, answer⟩ :=
                ih _ (bound ▸ input.remaining_lt _ _ _ pulled) after rfl fields' invalid'
              refine ⟨packet :: skipped, middle, .item pulled moved, ?_, ?_⟩
              · rw [List.flatMap_cons, noRows, List.append_nil]
                simp only [packetRows, found]
              · rw [skip]
                exact answer
          | some parts =>
              rcases parts with ⟨ip, message⟩
              refine ⟨[], is, .refl, rfl, ?_⟩
              rw [nextKeyValue_message input decode parseMessage lawful fields key pulled found]
              cases rows : messageRows ip message with
              | nil => exact .rowless pulled (by simp only [packetRows, found, rows, List.map_nil])
              | cons tuple tupleQueue =>
                  exact .row tuple tupleQueue pulled (by simp only [packetRows, found, rows])

structure Accounted (messageRows : Ipv4Packet → DnsMessage → List ρ) (start : σ)
    (returned : List (Keyed ρ)) (pulls : Nat) (reader : DnsReader σ ρ) : Prop where
  rows : returned ++ reader.tupleQueue.map (Keyed.mk reader.key) =
    (itemsAfter input.getPacket start pulls).flatMap (packetRows messageRows decode parseMessage)
  invalid : reader.fields.valid = false
  stream : reader.is = stateAfter input.getPacket start pulls ∨ input.Closed reader.is

variable {input decode parseMessage}

private theorem Accounted.of_answer {start : σ} {returned : List (Keyed ρ)} {pulls : Nat}
    {key : Int} {is middle : σ} {skipped : List PcapPacket}
    {call : Pull (DnsReader σ ρ) (Keyed ρ) Ending}
    (rows : returned = (itemsAfter input.getPacket start pulls).flatMap
      (packetRows messageRows decode parseMessage))
    (atStream : is = stateAfter input.getPacket start pulls)
    (moved : Advances input.getPacket is skipped middle)
    (noRows : skipped.flatMap (packetRows messageRows decode parseMessage) = [])
    (answer : Answer input decode parseMessage messageRows key middle call) :
    ∃ pulls, Accounted input decode parseMessage messageRows start (returned ++ call.items) pulls
      call.state := by
  obtain ⟨there, all⟩ := moved.after_pulls atStream.symm
  have same : returned =
      (itemsAfter input.getPacket start (pulls + skipped.length)).flatMap
        (packetRows messageRows decode parseMessage) := by
    rw [all, List.flatMap_append, noRows, List.append_nil]
    exact rows
  cases answer with
  | row tuple tupleQueue pulled packetRow =>
      refine ⟨pulls + skipped.length + 1, ?_, rfl, .inl ?_⟩
      · rw [itemsAfter, there, pulled, List.flatMap_append, ← same]
        simp [Pull.items, Pull.state, packetRow]
      · rw [stateAfter, there, pulled]
        rfl
  | rowless pulled packetRow =>
      refine ⟨pulls + skipped.length + 1, ?_, rfl, .inr (input.close_closed _)⟩
      rw [itemsAfter, there, pulled, List.flatMap_append, ← same]
      simp [Pull.items, Pull.state, packetRow]
  | ended pulled =>
      refine ⟨pulls + skipped.length, ?_, rfl, .inr (input.close_closed _)⟩
      rw [← same]
      simp [Pull.items, Pull.state]
  | threw invalid pulled =>
      refine ⟨pulls + skipped.length + 1, ?_, invalid, .inl ?_⟩
      · rw [itemsAfter, there, pulled, List.flatMap_append, ← same]
        simp [Pull.items, Pull.state]
      · rw [stateAfter, there, pulled]
        rfl

theorem Accounted.call (lawful : columns.Lawful messageRows) {start : σ}
    {returned : List (Keyed ρ)} {pulls : Nat} {reader : DnsReader σ ρ}
    (before : Accounted input decode parseMessage messageRows start returned pulls reader) :
    ∃ pulls, Accounted input decode parseMessage messageRows start
      (returned ++ (nextKeyValue input columns decode parseMessage reader).items) pulls
      (nextKeyValue input columns decode parseMessage reader).state := by
  rcases reader with ⟨tupleQueue, fields, key, is⟩
  cases tupleQueue with
  | cons tuple tupleQueue =>
      refine ⟨pulls, ?_, before.invalid, before.stream⟩
      rw [← before.rows]
      simp [nextKeyValue, Pull.items, Pull.state]
  | nil =>
      have rows := before.rows
      rw [List.map_nil, List.append_nil] at rows
      rcases before.stream with atStream | closed
      · obtain ⟨skipped, middle, moved, noRows, answer⟩ :=
          exists_answer input decode parseMessage lawful key is fields before.invalid
        exact Accounted.of_answer rows atStream moved noRows answer
      · obtain ⟨after, pulled, -⟩ := input.getPacket_closed is closed
        rw [nextKeyValue_stop input decode parseMessage fields key pulled, if_pos rfl]
        refine ⟨pulls, ?_, rfl, .inr (input.close_closed after)⟩
        rw [← rows]
        simp [Pull.items, Pull.state]

end Calls

end DnsReader

namespace DnsPacketAllRecordReader

end DnsPacketAllRecordReader

end Packetpig
