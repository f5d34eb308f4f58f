/-
The rows of PacketNgramRecordReader: once the capture is read, the odometer
runs through all keys of the configured width in lexicographic order.
-/

import Packetpig.Packet.PacketNgramRecordReader
import Mathlib.Data.List.GetD

namespace Packetpig.PacketNgramRecordReader

open Text Radix

theorem value_take_succ (key : Bytes) (i : Nat) (bound : i < key.length) :
    value (key.take (i + 1)) = value (key.take i) * 256 + (key.getD i 0).toNat := by
  rw [List.take_succ_eq_append_getElem bound, value_concat, List.getD_eq_getElem _ _ bound]

private theorem value_set_last (key : Bytes) (i : Nat) (bound : i < key.length) (digit : Byte) :
    value ((key.set i digit).take (i + 1)) = value (key.take i) * 256 + digit.toNat := by
  rw [value_take_succ _ _ (by simpa using bound), List.take_set_of_le (Nat.le_refl i),
    List.getD_eq_getElem _ _ (by simpa using bound), List.getElem_set_self]

theorem value_succ_eq_iff (key : Bytes) :
    value key + 1 = 256 ^ key.length ↔ ∀ digit ∈ key, digit = 255 := by
  induction key using List.reverseRecOn with
  | nil => simp
  | append_singleton key digit ih =>
      have bounded := digit.toNat_lt
      have below := value_lt key
      have last : digit.toNat = 255 ↔ digit = 255 := by
        constructor
        · intro same
          exact UInt8.toNat_inj.mp same
        · intro equal
          subst equal
          rfl
      rw [value_concat, List.length_append, List.length_singleton, Nat.pow_succ]
      simp only [List.forall_mem_append, List.forall_mem_singleton, ← ih, ← last]
      omega

theorem canIncrementByteKey_iff {n : Nat} {key : Bytes} (width : key.length = n) :
    canIncrementByteKey key = true ↔ value key + 1 < 256 ^ n := by
  subst width
  have below := value_lt key
  have full := value_succ_eq_iff key
  rw [canIncrementByteKey, List.any_eq_true]
  constructor
  · intro found
    rcases found with ⟨digit, member, different⟩
    have notFull : ¬ ∀ digit ∈ key, digit = 255 := fun every =>
      (of_decide_eq_true different) (every digit member)
    rw [← full] at notFull
    omega
  · intro room
    have notFull : ¬ ∀ digit ∈ key, digit = 255 := by
      rw [← full]
      omega
    simpa using notFull

private theorem setSucc_spec (i : Nat) (key : Bytes) (bound : i < key.length)
    (notFull : key.getD i 0 ≠ 255) :
    (key.set i (key.getD i 0 + 1)).length = key.length ∧
      (key.set i (key.getD i 0 + 1)).drop (i + 1) = key.drop (i + 1) ∧
      value ((key.set i (key.getD i 0 + 1)).take (i + 1)) = value (key.take (i + 1)) + 1 := by
  have bounded := (key.getD i 0).toNat_lt
  have different : (key.getD i 0).toNat ≠ 255 := fun same => notFull (UInt8.toNat_inj.mp same)
  refine ⟨List.length_set, List.drop_set_of_lt (by omega), ?_⟩
  rw [value_set_last key i bound, value_take_succ key i bound, UInt8.toNat_add]
  simp only [UInt8.reduceToNat]
  omega

private theorem incrementByteKeyIndex_spec (i : Nat) (key : Bytes) (bound : i < key.length)
    (room : value (key.take (i + 1)) + 1 < 256 ^ (i + 1)) :
    (incrementByteKeyIndex key i).length = key.length ∧
      (incrementByteKeyIndex key i).drop (i + 1) = key.drop (i + 1) ∧
      value ((incrementByteKeyIndex key i).take (i + 1)) = value (key.take (i + 1)) + 1 := by
  induction i generalizing key with
  | zero =>
      have whole := value_take_succ key 0 bound
      simp only [List.take_zero, value_nil, Nat.zero_mul, Nat.zero_add] at whole
      have notFull : key.getD 0 0 ≠ 255 := by
        intro full
        rw [whole, full] at room
        revert room
        decide
      rw [incrementByteKeyIndex, if_neg notFull]
      exact setSucc_spec 0 key bound notFull
  | succ i ih =>
      have whole := value_take_succ key (i + 1) bound
      by_cases full : key.getD (i + 1) 0 = 255
      · have leftRoom : value ((key.set (i + 1) 0).take (i + 1)) + 1 < 256 ^ (i + 1) := by
          rw [List.take_set_of_le (Nat.le_refl _)]
          rw [whole, full, Nat.pow_succ] at room
          have last : (255 : Byte).toNat = 255 := rfl
          omega
        obtain ⟨sameLength, sameRight, larger⟩ := ih (key.set (i + 1) 0)
          (by rw [List.length_set]; omega) leftRoom
        rw [incrementByteKeyIndex, if_pos full]
        rw [List.length_set] at sameLength
        have lastDigit : (incrementByteKeyIndex (key.set (i + 1) 0) i).getD (i + 1) 0 = 0 := by
          have first := congrArg (fun digits => digits.getD 0 0) sameRight
          simp only [List.getD_eq_getElem?_getD, List.getElem?_drop, Nat.add_zero] at first
          rw [List.getD_eq_getElem?_getD, first, List.getElem?_set_self bound]
          rfl
        refine ⟨sameLength, ?_, ?_⟩
        · have oneMore := congrArg (List.drop 1) sameRight
          rw [List.drop_drop, List.drop_drop] at oneMore
          rw [oneMore, List.drop_set_of_lt (by omega)]
        · rw [value_take_succ _ _ (by rw [sameLength]; exact bound), larger, lastDigit,
            List.take_set_of_le (Nat.le_refl _), whole, full]
          have last : (255 : Byte).toNat = 255 := rfl
          have none : (0 : Byte).toNat = 0 := rfl
          omega
      · rw [incrementByteKeyIndex, if_neg full]
        exact setSucc_spec (i + 1) key bound full

private theorem incrementByteKey_eq (key : Bytes) (positive : key ≠ [])
    (room : canIncrementByteKey key = true) :
    incrementByteKey key.length key = incrementByteKeyIndex key (key.length - 1) := by
  match key, positive with
  | [first], _ =>
      have notFull : first ≠ 255 := by simpa [canIncrementByteKey] using room
      simp [incrementByteKey, incrementByteKeyIndex, notFull]
  | [first, second], _ =>
      by_cases full : second = 255
      · have notFull : first ≠ 255 := by simpa [canIncrementByteKey, full] using room
        simp [incrementByteKey, incrementByteKeyIndex, full, notFull]
      · simp [incrementByteKey, incrementByteKeyIndex, full]
  | first :: second :: third :: rest, _ =>
      have long : (first :: second :: third :: rest).length > 2 := by simp
      rw [incrementByteKey, if_pos long]

theorem incrementByteKey_spec (n : Nat) (positive : 0 < n) (key : Bytes) (width : key.length = n)
    (room : value key + 1 < 256 ^ n) :
    (incrementByteKey n key).length = n ∧ value (incrementByteKey n key) = value key + 1 := by
  subst width
  have nonempty : key ≠ [] := List.ne_nil_of_length_pos positive
  have last : key.length - 1 + 1 = key.length := by omega
  have whole : key.take (key.length - 1 + 1) = key := by rw [last, List.take_length]
  obtain ⟨sameLength, -, larger⟩ := incrementByteKeyIndex_spec (key.length - 1) key (by omega)
    (by rw [whole, last]; exact room)
  rw [incrementByteKey_eq key nonempty ((canIncrementByteKey_iff rfl).mpr room)]
  refine ⟨sameLength, ?_⟩
  rw [whole, last, List.take_of_length_le (by rw [sameLength])] at larger
  exact larger

theorem emitRow_running {σ : Type} {current : PacketNgramRecordReader σ}
    (notDone : current.done = false) (width : current.byteKey.length = current.n) :
    emitRow current = .item ⟨0, row current.filter current.n current.cache current.byteKey⟩
      (if value current.byteKey + 1 < 256 ^ current.n then
        { current with byteKey := incrementByteKey current.n current.byteKey }
      else { current with done := true }) := by
  have room := canIncrementByteKey_iff width
  unfold emitRow
  rw [if_neg (by simp [notDone])]
  by_cases more : value current.byteKey + 1 < 256 ^ current.n
  · rw [if_pos more, if_pos (room.mpr more)]
  · rw [if_neg more, if_neg (mt room.mp more)]

section Rows

variable {σ : Type} (input : PcapInputStream σ) (decode : PcapPacket → Frame)

private theorem packetLoop_of_delivers {state final : σ} {packets : List PcapPacket}
    {exception : JavaException} (run : input.Delivers state packets exception final)
    (fuel : Nat) (enough : packets.length < fuel) (reader : PacketNgramRecordReader σ)
    (atState : reader.is = state) :
    packetLoop input decode fuel reader =
      (exception,
        { reader with
          is := final
          cache := (packets.map decode).foldl (countFrame reader.filter reader.n)
            reader.cache }) := by
  induction run generalizing fuel reader with
  | stop pulled =>
      cases fuel with
      | zero => omega
      | succ fuel =>
          subst atState
          simp only [packetLoop, pulled, List.map_nil, List.foldl_nil]
  | item pulled _ ih =>
      cases fuel with
      | zero => omega
      | succ fuel =>
          subst atState
          simp only [packetLoop, pulled]
          rw [ih fuel (by simpa using enough) _ rfl]
          rfl

def afterCapture (reader : PacketNgramRecordReader σ) (packets : List PcapPacket) (final : σ) :
    PacketNgramRecordReader σ :=
  { reader with
    is := final
    cache := (packets.map decode).foldl (countFrame reader.filter reader.n) reader.cache }

theorem nextKeyValue_of_delivers (reader : PacketNgramRecordReader σ) {final : σ}
    {packets : List PcapPacket} {exception : JavaException}
    (run : input.Delivers reader.is packets exception final) :
    nextKeyValue input decode reader =
      if exception = .ioException then
        emitRow (afterCapture decode reader packets (input.close final))
      else .stop (.threw exception) (afterCapture decode reader packets final) := by
  have enough : packets.length < input.remaining reader.is + 1 := by
    have bound := run.length_le
    omega
  have loop := packetLoop_of_delivers input decode run _ enough reader rfl
  simp only [nextKeyValue, loop]
  cases exception <;> rfl

theorem nextKeyValue_of_closed (reader : PacketNgramRecordReader σ)
    (isClosed : input.Closed reader.is) :
    ∃ is, input.Closed is ∧ nextKeyValue input decode reader = emitRow { reader with is } := by
  obtain ⟨after, pulled, -⟩ := input.getPacket_closed reader.is isClosed
  exact ⟨input.close after, input.close_closed after,
    nextKeyValue_of_delivers input decode reader (.stop pulled)⟩

private theorem yields_from_key (n : Nat) (positive : 0 < n) (left : Nat)
    (reader current : PacketNgramRecordReader σ)
    (next : nextKeyValue input decode reader = emitRow current)
    (isClosed : input.Closed current.is) (atWidth : current.n = n)
    (width : current.byteKey.length = n) (notDone : current.done = false)
    (here : value current.byteKey + left + 1 = 256 ^ n) :
    ∃ final, Yields (nextKeyValue input decode) reader
      ((List.range' (value current.byteKey) (left + 1)).map fun number =>
        ⟨0, row current.filter n current.cache (digits n number)⟩) .returnedFalse final := by
  induction left generalizing reader current with
  | zero =>
      have emitted : nextKeyValue input decode reader =
          .item ⟨0, row current.filter n current.cache (digits n (value current.byteKey))⟩
            { current with done := true } := by
        rw [next, emitRow_running notDone (width.trans atWidth.symm), atWidth, if_neg (by omega),
          digits_value_of_length width]
      obtain ⟨is, -, last⟩ :=
        nextKeyValue_of_closed input decode { current with done := true } isClosed
      exact ⟨_, .item emitted (.stop last)⟩
  | succ left ih =>
      obtain ⟨nextWidth, nextValue⟩ := incrementByteKey_spec n positive current.byteKey width
        (by omega)
      obtain ⟨is, closedAfter, later⟩ := nextKeyValue_of_closed input decode
        { current with byteKey := incrementByteKey n current.byteKey } isClosed
      obtain ⟨final, rest⟩ := ih _ _ later closedAfter atWidth nextWidth notDone
        (by change value (incrementByteKey n current.byteKey) + left + 1 = _; omega)
      have emitted : nextKeyValue input decode reader =
          .item ⟨0, row current.filter n current.cache (digits n (value current.byteKey))⟩
            { current with byteKey := incrementByteKey n current.byteKey } := by
        rw [next, emitRow_running notDone (width.trans atWidth.symm), atWidth, if_pos (by omega),
          digits_value_of_length width]
      refine ⟨final, ?_⟩
      rw [List.range'_succ, List.map_cons, ← nextValue]
      exact .item emitted rest

/-- A capture that ends with `IOException` gives one row for each key of the
width, in lexicographic order, and then the run ends. -/
theorem yields_rows (filter : PacketFilter) (n : Nat) (positive : 0 < n) {is final : σ}
    {packets : List PcapPacket} (run : input.Delivers is packets .ioException final) :
    ∃ last, Yields (nextKeyValue input decode) (initializeReader filter n is)
      ((keys n).map fun key =>
        ⟨0, row filter n ((packets.map decode).foldl (countFrame filter n) ∅) key⟩)
      .returnedFalse last := by
  have powerPositive : 0 < 256 ^ n := Nat.pow_pos (by omega)
  have start : value (List.replicate n 0) = 0 := value_replicate_zero n
  have first := nextKeyValue_of_delivers input decode (initializeReader filter n is) run
  rw [if_pos rfl] at first
  obtain ⟨last, rows⟩ := yields_from_key input decode n positive (256 ^ n - 1) _ _ first
    (input.close_closed final) rfl List.length_replicate rfl
    (by change value (List.replicate n 0) + _ + _ = _; omega)
  change Yields _ _ ((List.range' (value (List.replicate n 0)) _).map _) _ _ at rows
  rw [start, Nat.sub_add_cancel powerPositive, ← List.range_eq_range'] at rows
  refine ⟨last, ?_⟩
  rw [keys, List.map_map]
  exact rows

theorem throws_of_delivers (filter : PacketFilter) (n : Nat) {is final : σ}
    {packets : List PcapPacket} {exception : JavaException} (unchecked : exception ≠ .ioException)
    (run : input.Delivers is packets exception final) :
    ∃ last, Yields (nextKeyValue input decode) (initializeReader filter n is) []
      (.threw exception) last := by
  have thrown := nextKeyValue_of_delivers input decode (initializeReader filter n is) run
  rw [if_neg unchecked] at thrown
  exact ⟨_, .stop thrown⟩

end Rows

end Packetpig.PacketNgramRecordReader
