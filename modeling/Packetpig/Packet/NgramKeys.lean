/-
One call of PacketNgramRecordReader after the other: the key that each call
shows, with the count that the cache has for it, and the calls behind the last
key.
-/

import Packetpig.Packet.NgramRows

namespace Packetpig.PacketNgramRecordReader

open Text Radix

section Calls

variable {σ : Type} (input : PcapInputStream σ) (decode : PcapPacket → Frame)

def afterCalls (reader : PacketNgramRecordReader σ) (calls : Nat) : PacketNgramRecordReader σ :=
  stateAfter (nextKeyValue input decode) reader calls

/-- All keys of a width, each once, in lexicographic order and from zeros on. -/
structure InOrder (n : Nat) (order : List Bytes) : Prop where
  count : order.length = 256 ^ n
  increasing : order.Pairwise (· < ·)
  once : order.Nodup
  start : order.head? = some (List.replicate n 0)
  all : ∀ key, key ∈ order ↔ key.length = n

/-- The calls return true once for each key and with its count in the cache, and
false ever after. -/
structure Enumerates (reader : PacketNgramRecordReader σ) (cache : NgramCache)
    (order : List Bytes) : Prop where
  returnsTrue : ∀ calls key, order[calls]? = some key →
    (afterCalls input decode reader calls).byteKey = key ∧
      ∃ keyed next,
        nextKeyValue input decode (afterCalls input decode reader calls) = .item keyed next ∧
          keyed.tuple.count = (cache.lookup key).getD 0
  returnsFalse : ∀ calls, order.length ≤ calls →
    ∃ next, nextKeyValue input decode (afterCalls input decode reader calls) =
      .stop .returnedFalse next

/-- The reader in front of a call, and the reader that the rest of the call works
on, once the stream has thrown. -/
structure Shows (n : Nat) (cache : NgramCache) (calls : Nat)
    (state current : PacketNgramRecordReader σ) : Prop where
  next : nextKeyValue input decode state = emitRow current
  closed : input.Closed current.is
  width : current.n = n
  cached : current.cache = cache
  sameKey : current.byteKey = state.byteKey
  running : calls < 256 ^ n → current.byteKey = digits n calls ∧ current.done = false
  ended : 256 ^ n ≤ calls → current.done = true

variable {input decode}

private theorem Shows.of_closed {n : Nat} {cache : NgramCache} {calls : Nat}
    {state : PacketNgramRecordReader σ} (closed : input.Closed state.is) (width : state.n = n)
    (cached : state.cache = cache)
    (running : calls < 256 ^ n → state.byteKey = digits n calls ∧ state.done = false)
    (ended : 256 ^ n ≤ calls → state.done = true) :
    ∃ current, Shows input decode n cache calls state current := by
  obtain ⟨is, stillClosed, next⟩ := nextKeyValue_of_closed input decode state closed
  exact ⟨{ state with is }, next, stillClosed, width, cached, rfl, running, ended⟩

theorem Shows.answer_of_lt {n : Nat} {cache : NgramCache} {calls : Nat}
    {state current : PacketNgramRecordReader σ}
    (now : Shows input decode n cache calls state current) (more : calls < 256 ^ n) :
    nextKeyValue input decode state =
      .item ⟨0, row current.filter n cache (digits n calls)⟩
        (if calls + 1 < 256 ^ n then
          { current with byteKey := incrementByteKey n current.byteKey }
        else { current with done := true }) := by
  obtain ⟨key, notDone⟩ := now.running more
  have width : current.byteKey.length = current.n := by
    rw [key, digits_length, now.width]
  have spelled : value current.byteKey = calls := by
    rw [key, value_digits, Nat.mod_eq_of_lt more]
  rw [now.next, emitRow_running notDone width, spelled, now.width, now.cached, key]

theorem Shows.answer_of_ge {n : Nat} {cache : NgramCache} {calls : Nat}
    {state current : PacketNgramRecordReader σ}
    (now : Shows input decode n cache calls state current) (past : 256 ^ n ≤ calls) :
    nextKeyValue input decode state = .stop .returnedFalse current := by
  rw [now.next, emitRow, if_pos (now.ended past)]

theorem Shows.call {n : Nat} (positive : 0 < n) {cache : NgramCache} {calls : Nat}
    {state current : PacketNgramRecordReader σ}
    (now : Shows input decode n cache calls state current) :
    ∃ current, Shows input decode n cache (calls + 1)
      (nextKeyValue input decode state).state current := by
  by_cases more : calls < 256 ^ n
  · obtain ⟨key, notDone⟩ := now.running more
    rw [now.answer_of_lt more, Pull.state]
    by_cases last : calls + 1 < 256 ^ n
    · have spelled : value current.byteKey = calls := by
        rw [key, value_digits, Nat.mod_eq_of_lt more]
      obtain ⟨nextWidth, nextValue⟩ := incrementByteKey_spec n positive current.byteKey
        (by rw [key, digits_length]) (by rw [spelled]; exact last)
      rw [if_pos last]
      apply Shows.of_closed
      · exact now.closed
      · exact now.width
      · exact now.cached
      · intro _
        refine ⟨?_, notDone⟩
        rw [spelled] at nextValue
        rw [← nextValue]
        exact (digits_value_of_length nextWidth).symm
      · intro past
        exact absurd last (Nat.not_lt.mpr past)
    · rw [if_neg last]
      apply Shows.of_closed
      · exact now.closed
      · exact now.width
      · exact now.cached
      · intro less
        exact absurd less last
      · intro _
        rfl
  · have past := Nat.le_of_not_lt more
    rw [now.answer_of_ge past, Pull.state]
    apply Shows.of_closed now.closed now.width now.cached
    · intro less
      omega
    · intro _
      exact now.ended past

def withCache (filter : PacketFilter) (n : Nat) (is : σ) (cache : NgramCache) :
    PacketNgramRecordReader σ :=
  { initializeReader filter n is with cache }

theorem shows_afterCalls (filter : PacketFilter) {n : Nat} (positive : 0 < n) {is final : σ}
    (cache : NgramCache) {packets : List PcapPacket}
    (run : input.Delivers is packets .ioException final) (calls : Nat) :
    ∃ current, Shows input decode n ((packets.map decode).foldl (countFrame filter n) cache) calls
      (afterCalls input decode (withCache filter n is cache) calls) current := by
  have first := nextKeyValue_of_delivers input decode (withCache filter n is cache) run
  rw [if_pos rfl] at first
  apply stateAfter_invariant
    (fun calls state => ∃ current, Shows input decode n
      ((packets.map decode).foldl (countFrame filter n) cache) calls state current)
  · intro calls state shown
    rcases shown with ⟨current, now⟩
    exact now.call positive
  · refine ⟨_, first, input.close_closed final, rfl, rfl, rfl, ?_, ?_⟩
    · intro _
      have zeros := digits_value (List.replicate n 0)
      rw [List.length_replicate, value_replicate_zero] at zeros
      exact ⟨zeros.symm, rfl⟩
    · intro past
      have power : 0 < 256 ^ n := Nat.pow_pos (by omega)
      omega

theorem inOrder_keys (n : Nat) : InOrder n (keys n) where
  count := by rw [keys, List.length_map, List.length_range]
  increasing := keys_pairwise n
  once := by
    apply (keys_pairwise n).imp
    intro left right less same
    exact List.lt_irrefl _ (same ▸ less)
  start := keys_head? n
  all := mem_keys n

/-- Whatever the cache holds when the capture is read, the calls show every key
once. -/
theorem enumerates (filter : PacketFilter) {n : Nat} (positive : 0 < n) {is final : σ}
    (cache : NgramCache) {packets : List PcapPacket}
    (run : input.Delivers is packets .ioException final) :
    ∃ order, InOrder n order ∧
      Enumerates input decode (withCache filter n is cache)
        ((packets.map decode).foldl (countFrame filter n) cache) order := by
  have shown : ∀ calls, ∃ current,
      Shows input decode n ((packets.map decode).foldl (countFrame filter n) cache) calls
        (afterCalls input decode (withCache filter n is cache) calls) current :=
    shows_afterCalls filter positive cache run
  refine ⟨keys n, inOrder_keys n, ?_, ?_⟩
  · intro calls key found
    obtain ⟨current, now⟩ := shown calls
    obtain ⟨place, spelled⟩ := List.getElem?_eq_some_iff.mp found
    have more : calls < 256 ^ n := (inOrder_keys n).count ▸ place
    have same : digits n calls = key := by
      rw [← spelled]
      simp [keys]
    refine ⟨?_, _, _, now.answer_of_lt more, ?_⟩
    · rw [← now.sameKey, (now.running more).1, same]
    · rw [← same]
      rfl
  · intro calls past
    obtain ⟨current, now⟩ := shown calls
    rw [(inOrder_keys n).count] at past
    exact ⟨current, now.answer_of_ge past⟩

end Calls

/-- An empty capture, with one 1-gram in the cache. -/
theorem enumerates_single : ∃ order, InOrder 1 order ∧
    Enumerates captureInputStream (fun _ => .other)
      (withCache ⟨0, 0, []⟩ 1 (Capture.fresh []) (AList.insert [65] 7 ∅))
      (AList.insert [65] 7 ∅) order :=
  enumerates ⟨0, 0, []⟩ (by omega) _ (captureInputStream_delivers [])

end Packetpig.PacketNgramRecordReader
