/-
The payload of a packet as it lies in the bytes that `copyData` takes from the
packet's buffer, and the windows that `updateNgram` visits in these bytes.

`updateNgram` compares `i + n < data.size()`: it visits every window of the
copied bytes except the last one. So it visits windows that reach into headers
or padding, and it leaves out the last window of a payload that ends its buffer.
-/

import Packetpig.Packet.PacketNgramRecordReader

namespace Packetpig

open Text

/-- A payload with the bytes that stand in front of it and behind it. -/
structure PlacedPayload where
  before : Bytes
  payload : Bytes
  behind : Bytes
deriving DecidableEq, Repr

/-- The payload of a packet whose headers give it so many bytes. -/
def Buffer.placed (buffer : Buffer) (length : Nat) : PlacedPayload where
  before := buffer.bytes.take buffer.position
  payload := buffer.unread.take length
  behind := buffer.unread.drop length

def TcpPacket.placed (packet : TcpPacket) : Option PlacedPayload :=
  packet.data.map fun buffer => buffer.placed packet.dataLength.toNat

def UdpPacket.placed (packet : UdpPacket) : PlacedPayload :=
  packet.data.placed (packet.length - 8)

def Transport.placed : Transport → Option PlacedPayload
  | .tcp packet => packet.placed
  | .udp packet => some packet.placed
  | .other => none

/-- The IP payload, in the bytes of the whole frame. -/
def Ipv4Packet.placed (packet : Ipv4Packet) : PlacedPayload :=
  let inData := packet.data.placed (packet.totalLength - packet.ihl)
  { inData with before := packet.l2Header ++ inData.before }

/-- The n-grams of one payload, one for each offset `i` with `i + n` within it. -/
def windows (n : Nat) (payload : Bytes) : List Bytes :=
  (List.range (payload.length + 1 - n)).map fun i => (payload.drop i).take n

/-- The windows that the loop of `updateNgram` visits. -/
def visitedWindows (n : Nat) (data : Bytes) : List Bytes :=
  (List.range (data.length - n)).map fun i => (data.drop i).take n

namespace PlacedPayload

def bytes (placed : PlacedPayload) : Bytes := placed.before ++ placed.payload ++ placed.behind

/-- The window at an offset of the bytes lies in the payload. -/
def Within (placed : PlacedPayload) (n i : Nat) : Prop :=
  placed.before.length ≤ i ∧ i + n ≤ placed.before.length + placed.payload.length

instance (placed : PlacedPayload) (n i : Nat) : Decidable (placed.Within n i) :=
  inferInstanceAs (Decidable (_ ∧ _))

/-- The visited windows that do not lie in the payload. -/
def foreignWindows (n : Nat) (placed : PlacedPayload) : List Bytes :=
  ((List.range (placed.bytes.length - n)).filter fun i => ¬ placed.Within n i).map fun i =>
    (placed.bytes.drop i).take n

/-- The payload ends with the key, and the bytes end with the payload. -/
def EndsIn (placed : PlacedPayload) (key : Bytes) : Prop :=
  placed.behind = [] ∧ key <:+ placed.payload

instance (placed : PlacedPayload) (key : Bytes) : Decidable (placed.EndsIn key) :=
  inferInstanceAs (Decidable (_ ∧ _))

@[simp] theorem length_bytes (placed : PlacedPayload) :
    placed.bytes.length =
      placed.before.length + placed.payload.length + placed.behind.length := by
  simp only [bytes, List.length_append]

end PlacedPayload

theorem Buffer.bytes_placed (buffer : Buffer) (length : Nat) :
    (buffer.placed length).bytes = buffer.bytes := by
  simp only [PlacedPayload.bytes, placed, List.append_assoc, List.take_append_drop, unread]

theorem Ipv4Packet.bytes_placed (packet : Ipv4Packet) :
    packet.placed.bytes = packet.getBuffer.bytes := by
  have data := packet.data.bytes_placed (packet.totalLength - packet.ihl)
  simp only [PlacedPayload.bytes, List.append_assoc] at data
  simp only [placed, PlacedPayload.bytes, List.append_assoc, data]
  rfl

theorem count_windows (n : Nat) (payload key : Bytes) (width : key.length = n) :
    (windows n payload).count key =
      (visitedWindows n payload).count key + if key <:+ payload then 1 else 0 := by
  by_cases fits : n ≤ payload.length
  · have last : (payload.drop (payload.length - n)).take n = payload.drop (payload.length - n) := by
      rw [List.take_of_length_le]
      rw [List.length_drop]
      omega
    have isLast : payload.drop (payload.length - n) = key ↔ key <:+ payload := by
      rw [List.suffix_iff_eq_drop, width]
      exact eq_comm
    rw [windows, visitedWindows, Nat.succ_sub fits, List.range_succ, List.map_append,
      List.count_append, List.map_singleton, last, List.count_singleton]
    simp only [beq_iff_eq, isLast]
  · have short : ¬ key <:+ payload := by
      intro isSuffix
      have bound := isSuffix.length_le
      omega
    have noWindow : payload.length + 1 - n = 0 := by omega
    have noVisit : payload.length - n = 0 := by omega
    rw [windows, visitedWindows, noWindow, noVisit, if_neg short]
    rfl

private theorem filter_range_between (bound start length : Nat)
    (fits : length = 0 ∨ start + length ≤ bound) :
    ((List.range bound).filter fun i => start ≤ i ∧ i < start + length) =
      (List.range length).map (start + ·) := by
  rcases fits with empty | fits
  · subst empty
    rw [List.range_zero, List.map_nil, List.filter_eq_nil_iff]
    intro i _
    rw [decide_eq_true_eq]
    omega
  · obtain ⟨rest, rfl⟩ := Nat.exists_eq_add_of_le fits
    have front : ((List.range start).filter fun i => start ≤ i ∧ i < start + length) = [] := by
      rw [List.filter_eq_nil_iff]
      intro i member
      have below := List.mem_range.mp member
      rw [decide_eq_true_eq]
      omega
    have middle : (((List.range length).map (start + ·)).filter fun i =>
        start ≤ i ∧ i < start + length) = (List.range length).map (start + ·) := by
      rw [List.filter_eq_self]
      intro i member
      obtain ⟨offset, inRange, rfl⟩ := List.mem_map.mp member
      have below := List.mem_range.mp inRange
      rw [decide_eq_true_eq]
      omega
    have back : (((List.range rest).map (start + length + ·)).filter fun i =>
        start ≤ i ∧ i < start + length) = [] := by
      rw [List.filter_eq_nil_iff]
      intro i member
      obtain ⟨offset, -, rfl⟩ := List.mem_map.mp member
      rw [decide_eq_true_eq]
      omega
    rw [List.range_add, List.filter_append, back, List.append_nil, List.range_add,
      List.filter_append, front, middle, List.nil_append]

namespace PlacedPayload

private theorem take_drop_bytes (placed : PlacedPayload) {n i : Nat}
    (within : i + n ≤ placed.payload.length) :
    (placed.bytes.drop (placed.before.length + i)).take n = (placed.payload.drop i).take n := by
  rw [bytes, List.append_assoc, List.drop_length_add_append,
    List.drop_append_of_le_length (by omega),
    List.take_append_of_le_length (by rw [List.length_drop]; omega)]

private theorem visited_within (placed : PlacedPayload) (n count : Nat)
    (fits : count = 0 ∨ placed.before.length + count ≤ placed.bytes.length - n)
    (within : ∀ i < placed.bytes.length - n, placed.Within n i ↔
      placed.before.length ≤ i ∧ i < placed.before.length + count) :
    (((List.range (placed.bytes.length - n)).filter fun i => placed.Within n i).map fun i =>
        (placed.bytes.drop i).take n) =
      (List.range count).map fun i => (placed.payload.drop i).take n := by
  have offsets : ((List.range (placed.bytes.length - n)).filter fun i => placed.Within n i) =
      (List.range count).map (placed.before.length + ·) := by
    rw [← filter_range_between _ _ _ fits]
    apply List.filter_congr
    intro i member
    exact decide_eq_decide.mpr (within i (List.mem_range.mp member))
  rw [offsets, List.map_map]
  apply List.map_congr_left
  intro i member
  have below := List.mem_range.mp member
  apply take_drop_bytes
  rcases fits with empty | fits
  · omega
  · have inside := ((within (placed.before.length + i) (by omega)).mpr (by omega)).2
    omega

private theorem visited_within_of_behind (placed : PlacedPayload) (n : Nat)
    (behind : placed.behind ≠ []) :
    (((List.range (placed.bytes.length - n)).filter fun i => placed.Within n i).map fun i =>
      (placed.bytes.drop i).take n) = windows n placed.payload := by
  have positive := List.length_pos_iff.mpr behind
  apply visited_within
  · rw [length_bytes]
    omega
  · intro i below
    rw [length_bytes] at below
    unfold Within
    omega

private theorem visited_within_of_end (placed : PlacedPayload) (n : Nat)
    (behind : placed.behind = []) :
    (((List.range (placed.bytes.length - n)).filter fun i => placed.Within n i).map fun i =>
      (placed.bytes.drop i).take n) = visitedWindows n placed.payload := by
  have ends := congrArg List.length behind
  rw [List.length_nil] at ends
  apply visited_within
  · rw [length_bytes]
    omega
  · intro i below
    rw [length_bytes] at below
    unfold Within
    omega

theorem count_visitedWindows (placed : PlacedPayload) (n : Nat) (key : Bytes)
    (width : key.length = n) :
    (visitedWindows n placed.bytes).count key + (if placed.EndsIn key then 1 else 0) =
      (windows n placed.payload).count key + (placed.foreignWindows n).count key := by
  have parts := List.filter_append_perm (fun i => decide (placed.Within n i))
    (List.range (placed.bytes.length - n))
  have counts := (parts.map fun i => (placed.bytes.drop i).take n).count_eq key
  rw [List.map_append, List.count_append] at counts
  have foreign : ((List.range (placed.bytes.length - n)).filter fun i =>
      !decide (placed.Within n i)).map (fun i => (placed.bytes.drop i).take n) =
        placed.foreignWindows n := by
    simp only [foreignWindows, decide_not]
  rw [foreign] at counts
  by_cases behind : placed.behind = []
  · have last := count_windows n placed.payload key width
    rw [visited_within_of_end placed n behind] at counts
    simp only [EndsIn, behind, true_and]
    rw [visitedWindows, ← counts]
    omega
  · rw [visited_within_of_behind placed n behind] at counts
    simp only [EndsIn, behind, false_and, if_false]
    exact counts.symm

end PlacedPayload

end Packetpig
