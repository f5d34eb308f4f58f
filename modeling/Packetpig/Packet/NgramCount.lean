/-
What the counters of PacketNgramRecordReader hold, compared with the number of
times an n-gram occurs in the selected payloads.

The counters are 32 bit integers. They miss the last window of a payload that
ends its buffer, and they hold the windows that reach into the headers in front
of a payload or into the padding behind it.
-/

import Packetpig.Packet.CountedFrames
import Packetpig.Packet.NgramRows
import Mathlib.Algebra.Ring.Nat

namespace Packetpig.PacketNgramRecordReader

open Text Radix

def placedPayloads (filter : PacketFilter) (frames : List Frame) : List PlacedPayload :=
  frames.filterMap (placedPayload filter)

def selectedPayloads (filter : PacketFilter) (frames : List Frame) : List Bytes :=
  (placedPayloads filter frames).map PlacedPayload.payload

/-- How often an n-gram occurs in the payloads, each taken by itself. -/
def occurrences (n : Nat) (payloads : List Bytes) (key : Bytes) : Nat :=
  (payloads.flatMap (windows n)).count key

/-- How often an n-gram is counted that does not lie in a payload. -/
def foreignCount (n : Nat) (payloads : List PlacedPayload) (key : Bytes) : Nat :=
  (payloads.flatMap (PlacedPayload.foreignWindows n)).count key

/-- How many payloads end with their buffer and with the n-gram. -/
def missedCount (payloads : List PlacedPayload) (key : Bytes) : Nat :=
  payloads.countP fun placed => placed.EndsIn key

theorem visited_add_missed (n : Nat) (payloads : List PlacedPayload) (key : Bytes)
    (width : key.length = n) :
    (payloads.flatMap fun placed => visitedWindows n placed.bytes).count key +
        missedCount payloads key =
      occurrences n (payloads.map PlacedPayload.payload) key + foreignCount n payloads key := by
  induction payloads with
  | nil => rfl
  | cons placed payloads ih =>
      have one := placed.count_visitedWindows n key width
      simp only [occurrences, foreignCount, missedCount] at ih
      simp only [occurrences, foreignCount, missedCount, List.map_cons, List.flatMap_cons,
        List.count_append, List.countP_cons, decide_eq_true_eq]
      omega

theorem count_foldl_countFrame (filter : PacketFilter) (n : Nat) (frames : List Frame)
    (cache : NgramCache) (key : Bytes) :
    (frames.foldl (countFrame filter n) cache).count key =
      cache.count key + BitVec.ofNat 32
        (((placedPayloads filter frames).flatMap fun placed =>
          visitedWindows n placed.bytes).count key) := by
  induction frames generalizing cache with
  | nil => simp [placedPayloads]
  | cons frame frames ih =>
      rw [List.foldl_cons, ih, countFrame_eq, count_updateNgram, BitVec.add_assoc,
        ← BitVec.ofNat_add, ← List.count_append]
      simp only [placedPayloads, List.filterMap_cons]
      cases placedPayload filter frame with
      | none => rfl
      | some placed =>
          simp only [Option.map_some, Option.toList_some, List.flatMap_cons, List.flatMap_nil,
            List.append_nil]

private theorem toInt_ofNat_eq_iff {visited missed occurred foreign : Nat}
    (balance : visited + missed = occurred + foreign) :
    (BitVec.ofNat 32 visited).toInt = (occurred : Int) ↔
      foreign % 2 ^ 32 = missed % 2 ^ 32 ∧ occurred < 2 ^ 31 := by
  rw [BitVec.toInt_eq_toNat_cond, BitVec.toNat_ofNat]
  split <;> omega

theorem row_count_iff (filter : PacketFilter) (n : Nat) (frames : List Frame) (key : Bytes)
    (width : key.length = n) :
    (row filter n (frames.foldl (countFrame filter n) ∅) key).count.toInt =
        (occurrences n (selectedPayloads filter frames) key : Int) ↔
      foreignCount n (placedPayloads filter frames) key % 2 ^ 32 =
          missedCount (placedPayloads filter frames) key % 2 ^ 32 ∧
        occurrences n (selectedPayloads filter frames) key < 2 ^ 31 := by
  have empty : NgramCache.count (∅ : NgramCache) key = 0#32 := rfl
  have balance := visited_add_missed n (placedPayloads filter frames) key width
  change (NgramCache.count _ key).toInt = _ ↔ _
  rw [count_foldl_countFrame, empty, BitVec.zero_add]
  exact toInt_ofNat_eq_iff balance

theorem getElem?_keys_map {ρ : Type} (view : Bytes → ρ) (n : Nat) (key : Bytes)
    (width : key.length = n) : ((keys n).map view)[value key]? = some (view key) := by
  have bound := value_lt key
  rw [width] at bound
  rw [keys, List.map_map, List.getElem?_map, List.getElem?_range bound]
  exact congrArg (fun found => some (view found)) (digits_value_of_length width)

/-- The emitted count of an n-gram is the number of its occurrences exactly when
that number fits in 31 bits and the n-gram is counted outside of the payloads as
often as it is missed at the end of one. -/
theorem emitted_count_iff (filter : PacketFilter) (n : Nat) (positive : 0 < n)
    (decode : PcapPacket → Frame) (packets : List PcapPacket) (key : Bytes)
    (width : key.length = n) :
    ∃ rows last, Yields (nextKeyValue captureInputStream decode)
        (initializeReader filter n (Capture.fresh packets)) rows .returnedFalse last ∧
      ∃ emitted, rows[value key]? = some emitted ∧
        (emitted.tuple.count.toInt =
            (occurrences n (selectedPayloads filter (packets.map decode)) key : Int) ↔
          foreignCount n (placedPayloads filter (packets.map decode)) key % 2 ^ 32 =
              missedCount (placedPayloads filter (packets.map decode)) key % 2 ^ 32 ∧
            occurrences n (selectedPayloads filter (packets.map decode)) key < 2 ^ 31) := by
  obtain ⟨last, rows⟩ := yields_rows captureInputStream decode filter n positive
    (Capture.delivers_fresh packets)
  refine ⟨_, last, rows, _, getElem?_keys_map _ n key width, ?_⟩
  exact row_count_iff filter n (packets.map decode) key width

def singlePacket : PcapPacket := { packetHeader := ⟨0, 0, 0, 0⟩, packetData := [] }

/-- An unpadded frame from 10.0.0.1 to 10.0.0.2 whose IP payload belongs to a
protocol without a decoder. -/
def shortFrame (payload : Bytes) (short : payload.length < 2 ^ 8) : Frame :=
  let header : Bytes := [0x45, 0, 0, UInt8.ofNat (20 + payload.length), 0, 1, 0, 0, 64, 253, 0, 0,
    10, 0, 0, 1, 10, 0, 0, 2]
  have whole : ([header, payload] : List Bytes).flatten.length = 20 + payload.length := by
    simp [header]
    omega
  .ipv4
    { sourceAddress := ascii "10.0.0.1"
      destinationAddress := ascii "10.0.0.2"
      l2Header := ethernetHeader
      ihl := 20
      totalLength := 20 + payload.length
      data := ⟨[header, payload], 20, by omega, by omega⟩
      transport := .other
      l2Length := ethernetHeader_length
      small := by
        change 14 + ([header, payload] : List Bytes).flatten.length < _
        omega }

theorem emitted_count_inner : ∃ rows last,
    Yields (nextKeyValue captureInputStream fun _ => shortFrame [65, 66] (by decide))
      (initializeReader ⟨0, 0, []⟩ 1 (Capture.fresh [singlePacket])) rows .returnedFalse last ∧
    ∃ emitted, rows[value [65]]? = some emitted ∧ emitted.tuple.count.toInt = 1 := by
  obtain ⟨rows, last, run, emitted, found, exactly_iff⟩ :=
    emitted_count_iff ⟨0, 0, []⟩ 1 (by omega) (fun _ => shortFrame [65, 66] (by decide))
      [singlePacket] [65] rfl
  exact ⟨rows, last, run, emitted, found, exactly_iff.mpr (by decide)⟩

/-- The payload of the frame is the letter A alone: the row of A says zero, and
the row of E, the first byte of the IP header, says one. -/
theorem emitted_count_last_window : ∃ rows last,
    Yields (nextKeyValue captureInputStream fun _ => shortFrame [65] (by decide))
      (initializeReader ⟨0, 0, []⟩ 1 (Capture.fresh [singlePacket])) rows .returnedFalse last ∧
    selectedPayloads ⟨0, 0, []⟩ [shortFrame [65] (by decide)] = [[65]] ∧
    (∃ emitted, rows[value [65]]? = some emitted ∧ emitted.tuple.count.toInt = 0 ∧
      occurrences 1 [[65]] [65] = 1) ∧
    ∃ emitted, rows[value [0x45]]? = some emitted ∧ emitted.tuple.count.toInt = 1 ∧
      occurrences 1 [[65]] [0x45] = 0 := by
  obtain ⟨last, rows⟩ := yields_rows captureInputStream
    (fun _ => shortFrame [65] (by decide)) ⟨0, 0, []⟩ 1 (by omega)
    (Capture.delivers_fresh [singlePacket])
  exact ⟨_, last, rows, by decide,
    ⟨_, getElem?_keys_map _ 1 [65] rfl, by decide, by decide⟩,
    ⟨_, getElem?_keys_map _ 1 [0x45] rfl, by decide, by decide⟩⟩

end Packetpig.PacketNgramRecordReader
