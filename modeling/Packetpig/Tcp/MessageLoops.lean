/-
The two loops of HttpHandler end on every input: the loop over the chunks of a
body and the loop over the messages of a direction. Each message takes seven
bytes at least, two line ends around a letter and the blank line.
-/

import Packetpig.Tcp.MalformedHttp

namespace Packetpig

open Text

namespace HttpHandler

/-- One round of `while remaining and chunksize`: the piece it adds, or the
exception it raises. -/
def chunkRound (state : Bytes × Int) : Pull (Bytes × Int) Bytes (Option PyException) :=
  if state.1 = [] ∨ state.2 = 0 then .stop none state
  else
    match splitOnce crlf state.1 with
    | none => .stop none state
    | some (size, remaining) =>
        match readInt 16 size with
        | none => .stop (some (.parsingException (ascii "Incorrect chunk header"))) state
        | some chunksize =>
            .item (sliceTo remaining chunksize) (sliceFrom remaining (chunksize + 2), chunksize)

/-- The rounds come to an end, and the loop of the handler returns their pieces. -/
def ChunksEnd (remaining : Bytes) (chunksize : Int) : Prop :=
  ∃ pieces exception final, Yields chunkRound (remaining, chunksize) pieces exception final ∧
    ∀ fuel part, remaining.length < fuel →
      chunkLoop fuel remaining chunksize part =
        exception.elim (.ok (part ++ pieces.flatten)) .error

theorem chunkRound_shorter {state after : Bytes × Int} {piece : Bytes}
    (pulled : chunkRound state = .item piece after) : after.1.length < state.1.length := by
  unfold chunkRound at pulled
  split at pulled
  · cases pulled
  · cases halves : splitOnce crlf state.1 with
    | none =>
        rw [halves] at pulled
        cases pulled
    | some lines =>
        rw [halves] at pulled
        cases number : readInt 16 lines.1 with
        | none =>
            simp only [number] at pulled
            cases pulled
        | some chunksize =>
            simp only [number, Pull.item.injEq] at pulled
            rw [← pulled.2]
            exact chunk_shorter halves chunksize

def chunkSource : PullSource (Bytes × Int) Bytes (Option PyException) :=
  { next := chunkRound
    size := fun state => state.1.length
    shrinks := fun _ _ _ => chunkRound_shorter }

theorem chunkLoop_succ (fuel : Nat) (remaining : Bytes) (chunksize : Int) (part : Bytes) :
    chunkLoop (fuel + 1) remaining chunksize part =
      (chunkRound (remaining, chunksize)).elim
        (fun piece after => chunkLoop fuel after.1 after.2 (part ++ piece))
        (fun exception _ => exception.elim (.ok part) .error) := by
  rw [chunkLoop]
  unfold chunkRound
  by_cases ended : remaining = [] ∨ chunksize = 0
  · rw [if_pos ended, if_pos ended]
    rfl
  · rw [if_neg ended, if_neg ended]
    cases halves : splitOnce crlf remaining with
    | none => rfl
    | some lines =>
        cases number : readInt 16 lines.1 with
        | none =>
            simp only [number]
            rfl
        | some chunksize =>
            simp only [number]
            rfl

theorem chunkLoop_of_yields {state final : Bytes × Int} {pieces : List Bytes}
    {exception : Option PyException} (run : Yields chunkRound state pieces exception final)
    (fuel : Nat) (part : Bytes) (enough : state.1.length < fuel) :
    chunkLoop fuel state.1 state.2 part =
      exception.elim (.ok (part ++ pieces.flatten)) .error := by
  induction run generalizing fuel part with
  | stop pulled =>
      obtain ⟨fuel, rfl⟩ := Nat.exists_eq_succ_of_ne_zero (Nat.ne_zero_of_lt enough)
      rw [chunkLoop_succ, pulled, List.flatten_nil, List.append_nil]
      rfl
  | item pulled _ ih =>
      obtain ⟨fuel, rfl⟩ := Nat.exists_eq_succ_of_ne_zero (Nat.ne_zero_of_lt enough)
      have shorter := chunkRound_shorter pulled
      rw [chunkLoop_succ, pulled, Pull.elim, ih fuel _ (by omega), List.flatten_cons,
        List.append_assoc]

theorem chunksEnd (remaining : Bytes) (chunksize : Int) : ChunksEnd remaining chunksize := by
  obtain ⟨pieces, exception, final, run⟩ := chunkSource.exists_yields (remaining, chunksize)
  exact ⟨pieces, exception, final, run, fun fuel part => chunkLoop_of_yields run fuel part⟩

theorem httpSplit_length {data : Bytes} {bits : HttpBits} (found : httpSplit data = some bits) :
    bits.payload <:+ data ∧ bits.payload.length + 7 ≤ data.length := by
  obtain ⟨header, first, whole, -⟩ := httpSplit_eq_some found
  have someHeader : header ≠ [] := by
    intro empty
    rw [empty, List.append_nil] at first
    have split : splitOnce (crlf ++ crlf) data = some (bits.rawHeader, bits.payload) := by
      unfold httpSplit at found
      cases outer : splitOnce (crlf ++ crlf) data with
      | none => simp only [outer, reduceCtorEq] at found
      | some halves =>
          simp only [outer] at found
          cases inner : splitOnce crlf halves.1 with
          | none => simp only [inner, reduceCtorEq] at found
          | some lines =>
              simp only [inner, Option.some.injEq] at found
              rw [← found]
    have earlier : data = bits.status ++ (crlf ++ crlf) ++ (crlf ++ bits.payload) := by
      rw [whole, first]
      simp only [List.append_assoc]
    rw [earlier] at split
    have shorter := splitOnce_first _ _ _ _ _ split
    rw [first, List.length_append] at shorter
    simp [crlf] at shorter
  have letters := List.length_pos_of_ne_nil someHeader
  constructor
  · rw [whole]
    exact List.suffix_append _ _
  · rw [whole, first]
    simp only [List.length_append, crlf, List.length_cons, List.length_nil]
    omega

theorem extractHttpParts_suffix {gunzip : Bytes → Except PyException Bytes} {data rest : Bytes}
    {parts : HttpParts} (extracted : extractHttpParts gunzip data = .ok (some (parts, rest))) :
    rest <:+ data ∧ rest.length + 7 ≤ data.length := by
  obtain ⟨bits, part, found, -, -, -, same⟩ := extractHttpParts_eq_some extracted
  obtain ⟨suffix, shorter⟩ := httpSplit_length found
  rw [same]
  split
  · have bound := (List.drop_suffix part.length bits.payload).length_le
    exact ⟨(List.drop_suffix _ _).trans suffix, by omega⟩
  · exact ⟨List.nil_suffix, by simp; omega⟩

/-- Each message that is cut out leaves a rest of the data that is at least seven
bytes shorter. -/
def MessagesShorten (gunzip : Bytes → Except PyException Bytes) (data : Bytes) : Prop :=
  ∀ parts rest, extractHttpParts gunzip data = .ok (some (parts, rest)) →
    rest <:+ data ∧ rest.length + 7 ≤ data.length

/-- The loop over the messages comes to an end and has appended them, in either
direction. -/
def MessagesEnd (gunzip : Bytes → Except PyException Bytes) (data : Bytes) : Prop :=
  ∃ messages exception rest, Yields (cut gunzip) data messages exception rest ∧
    messages.length ≤ data.length / 7 ∧
    ∀ direction fuel, data.length < fuel →
      (go gunzip direction fuel data).1 = messages.map (HttpParts.record direction)

def messageSource (gunzip : Bytes → Except PyException Bytes) :
    PullSource Bytes HttpParts (Option PyException) :=
  { next := cut gunzip
    size := fun data => data.length / 7
    shrinks := by
      intro data parts rest pulled
      have shorter := (extractHttpParts_suffix (cut_eq_item gunzip pulled)).2
      omega }

theorem messagesEnd (gunzip : Bytes → Except PyException Bytes) (data : Bytes) :
    MessagesEnd gunzip data := by
  obtain ⟨messages, exception, rest, run⟩ := (messageSource gunzip).exists_yields data
  refine ⟨messages, exception, rest, run, (messageSource gunzip).length_le_size run, ?_⟩
  intro direction fuel enough
  exact (go_of_yields gunzip direction run fuel enough).1

theorem filter_direction (direction other : Direction) (messages : List HttpParts) :
    (messages.map (HttpParts.record other)).filter (·.direction = direction) =
      if other = direction then messages.map (HttpParts.record other) else [] := by
  split
  · rename_i same
    exact List.filter_eq_self.mpr (by simpa [HttpParts.record] using fun _ _ => same)
  · rename_i different
    exact List.filter_eq_nil_iff.mpr (by simpa [HttpParts.record] using fun _ _ => different)

theorem process_records {gunzip : Bytes → Except PyException Bytes} {sdata cdata : Bytes}
    {records : List HttpRecord} (returned : process gunzip sdata cdata = .ok records) :
    (records.filter (·.direction = .s)).length ≤ sdata.length / 7 ∧
      (records.filter (·.direction = .c)).length ≤ cdata.length / 7 := by
  obtain ⟨server, serverEnd, serverRest, -, serverCount, serverGo⟩ := messagesEnd gunzip sdata
  obtain ⟨client, clientEnd, clientRest, -, clientCount, clientGo⟩ := messagesEnd gunzip cdata
  unfold process at returned
  split at returned
  · cases returned
  · rename_i serverRecords serverGo'
    split at returned
    · cases returned
    · rename_i clientRecords clientGo'
      cases returned
      have serverSame : serverRecords = server.map (HttpParts.record .s) := by
        rw [← serverGo .s _ (Nat.lt_succ_self _), serverGo']
      have clientSame : clientRecords = client.map (HttpParts.record .c) := by
        rw [← clientGo .c _ (Nat.lt_succ_self _), clientGo']
      rw [serverSame, clientSame]
      simp only [List.filter_append, filter_direction, if_true, reduceCtorEq, if_false,
        List.append_nil, List.nil_append, List.length_map]
      exact ⟨serverCount, clientCount⟩

/-- Both loops end on every input, and the number of messages is bounded by the
length of the data. -/
theorem loops_end (gunzip : Bytes → Except PyException Bytes) :
    (∀ remaining chunksize, ChunksEnd remaining chunksize) ∧
      (∀ data, MessagesShorten gunzip data ∧ MessagesEnd gunzip data) ∧
      ∀ sdata cdata records, process gunzip sdata cdata = .ok records →
        (records.filter (·.direction = .s)).length ≤ sdata.length / 7 ∧
          (records.filter (·.direction = .c)).length ≤ cdata.length / 7 := by
  refine ⟨chunksEnd, ?_, fun _ _ _ => process_records⟩
  intro data
  exact ⟨fun _ _ => extractHttpParts_suffix, messagesEnd gunzip data⟩

end HttpHandler

end Packetpig
