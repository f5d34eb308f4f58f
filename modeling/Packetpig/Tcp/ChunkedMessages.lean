/-
Messages with a chunked body. The loop over the chunks decodes the body, but
the record carries the undecoded payload, and the next message is looked for at
the length of the decoded body instead of behind the last chunk.
-/

import Packetpig.Tcp.HttpMessages

namespace Packetpig

open Text

structure Chunk where
  size : Bytes
  data : Bytes
  sizeDigits : size ≠ [] ∧ ∀ letter ∈ size, isDigit 16 letter = true
  sizeValue : Nat.ofDigits 16 (size.reverse.map digitValue) = data.length
  dataNonempty : data ≠ []

namespace Chunk

def encode (chunk : Chunk) : Bytes := chunk.size ++ (crlf ++ (chunk.data ++ crlf))

def encodeAll (chunks : List Chunk) : Bytes :=
  chunks.flatMap encode ++ (ascii "0" ++ (crlf ++ crlf))

def body (chunks : List Chunk) : Bytes := chunks.flatMap data

end Chunk

/-- A message with a chunked body; its header names may repeat. -/
structure ChunkedMessage where
  status : Bytes
  headers : List (Bytes × Bytes)
  chunks : List Chunk
  statusPlain : Plain status
  namePlain : ∀ header ∈ headers, Plain header.1 ∧ colon ∉ header.1
  valuePlain : ∀ header ∈ headers, Plain header.2
  transferEncoding : ∃ header ∈ headers, lower header.1 = ascii "transfer-encoding" ∧
    lower header.2 = ascii "chunked"
  connection : ∃ header ∈ headers, lower header.1 = ascii "connection" ∧
    lower header.2 = ascii "keep-alive"
  noLength : ∀ header ∈ headers, lower header.1 ≠ ascii "content-length"

namespace ChunkedMessage

open HttpMessage HttpHandler

def wire (message : ChunkedMessage) : Bytes :=
  message.status ++
    (crlf ++ (headerLines message.headers ++ (crlf ++ Chunk.encodeAll message.chunks)))

/-- `extract_http_parts` returns the message with its body as payload, and
exactly what follows the message as the rest. -/
def ReadRight (gunzip : Bytes → Except PyException Bytes) (message : ChunkedMessage)
    (next : Bytes) : Prop :=
  ∃ parts, extractHttpParts gunzip (message.wire ++ next) = .ok (some (parts, next)) ∧
    parts.status = message.status ∧ parts.payload = Chunk.body message.chunks

end ChunkedMessage

namespace Chunk

theorem carriageReturn_notMem_size (chunk : Chunk) : carriageReturn ∉ chunk.size := by
  intro member
  have digit := chunk.sizeDigits.2 _ member
  exact absurd digit (by decide)

theorem length_body_lt (chunks : List Chunk) :
    (body chunks).length < (encodeAll chunks).length := by
  induction chunks with
  | nil => decide
  | cons chunk chunks ih =>
      simp only [encodeAll, body, encode, List.flatMap_cons, List.length_append] at ih ⊢
      omega

end Chunk

namespace HttpHandler

theorem readInt_size (chunk : Chunk) : readInt 16 chunk.size = some (chunk.data.length : Int) := by
  rw [readInt_digits (Nat.le_refl 16) chunk.sizeDigits.1 chunk.sizeDigits.2, chunk.sizeValue]

private theorem splitOnce_crlf (line rest : Bytes) (plain : carriageReturn ∉ line) :
    splitOnce crlf (line ++ (crlf ++ rest)) = some (line, rest) := by
  change splitOnce (carriageReturn :: _) _ = _
  rw [splitOnce_append carriageReturn _ _ _ plain]
  have here := splitOnce_here crlf rest (by decide)
  exact (congrArg (Option.map _) here).trans (by simp)

theorem chunkLoop_encode (chunk : Chunk) (rest : Bytes) (fuel : Nat) (chunksize : Int)
    (goesOn : chunksize ≠ 0) (partPayload : Bytes) :
    chunkLoop (fuel + 1) (chunk.encode ++ rest) chunksize partPayload =
      chunkLoop fuel rest chunk.data.length (partPayload ++ chunk.data) := by
  have shape : chunk.encode ++ rest = chunk.size ++ (crlf ++ (chunk.data ++ (crlf ++ rest))) := by
    simp [Chunk.encode]
  have some : chunk.encode ++ rest ≠ [] := by
    rw [shape]
    exact List.append_ne_nil_of_left_ne_nil chunk.sizeDigits.1 _
  have split := splitOnce_crlf chunk.size (chunk.data ++ (crlf ++ rest))
    chunk.carriageReturn_notMem_size
  rw [← shape] at split
  have behind : ((chunk.data.length : Int) + 2) = ((chunk.data ++ crlf).length : Nat) := by
    simp [crlf]
  rw [chunkLoop, if_neg (by simp [some, goesOn])]
  simp only [split, readInt_size]
  rw [sliceTo_natCast, List.take_left, behind, sliceFrom_natCast, ← List.append_assoc,
    List.drop_left]

theorem chunkLoop_encodeAll (chunks : List Chunk) (next : Bytes) (fuel : Nat)
    (enough : chunks.length < fuel) (chunksize : Int) (goesOn : chunksize ≠ 0)
    (partPayload : Bytes) :
    chunkLoop fuel (Chunk.encodeAll chunks ++ next) chunksize partPayload =
      .ok (partPayload ++ Chunk.body chunks) := by
  induction chunks generalizing fuel chunksize partPayload with
  | nil =>
      cases fuel with
      | zero => exact absurd enough (Nat.not_lt_zero _)
      | succ fuel =>
          have split : splitOnce crlf (ascii "0" ++ (crlf ++ (crlf ++ next))) =
              some (ascii "0", crlf ++ next) := splitOnce_crlf _ _ (by decide)
          have zero : readInt 16 (ascii "0") = some 0 := by decide
          have last : ∀ remaining, chunkLoop fuel remaining 0 partPayload = .ok partPayload := by
            intro remaining
            cases fuel with
            | zero => rfl
            | succ fuel => rw [chunkLoop, if_pos (.inr rfl)]
          have shape : Chunk.encodeAll [] ++ next = ascii "0" ++ (crlf ++ (crlf ++ next)) := by
            simp [Chunk.encodeAll]
          have some : ascii "0" ++ (crlf ++ (crlf ++ next)) ≠ [] := by simp [crlf]
          have nothing : sliceTo (crlf ++ next) 0 = [] := rfl
          rw [shape, chunkLoop, if_neg (by simp [some, goesOn])]
          simp only [split, zero, nothing, List.append_nil, last, Chunk.body, List.flatMap_nil]
  | cons chunk chunks ih =>
      cases fuel with
      | zero => exact absurd enough (Nat.not_lt_zero _)
      | succ fuel =>
          have shape : Chunk.encodeAll (chunk :: chunks) ++ next =
              chunk.encode ++ (Chunk.encodeAll chunks ++ next) := by
            simp [Chunk.encodeAll]
          have positive := List.length_pos_of_ne_nil chunk.dataNonempty
          rw [shape, chunkLoop_encode chunk _ fuel chunksize goesOn,
            ih fuel (Nat.lt_of_succ_lt_succ enough) _ (by omega)]
          simp only [Chunk.body, List.flatMap_cons, List.append_assoc]

end HttpHandler

namespace Chunk

theorem length_le_encodeAll (chunks : List Chunk) : chunks.length < (encodeAll chunks).length := by
  induction chunks with
  | nil => decide
  | cons chunk chunks ih =>
      have positive := List.length_pos_of_ne_nil chunk.dataNonempty
      simp only [encodeAll, encode, List.flatMap_cons, List.length_append, List.length_cons] at ih ⊢
      omega

end Chunk

namespace ChunkedMessage

open HttpMessage HttpHandler

variable (gunzip : Bytes → Except PyException Bytes) (message : ChunkedMessage)
  {init : List (Bytes × Bytes)} {last : Bytes × Bytes}

theorem exists_last : ∃ init last, message.headers = init ++ [last] := by
  obtain ⟨header, member, -⟩ := message.transferEncoding
  exact (List.eq_nil_or_concat' message.headers).resolve_left (List.ne_nil_of_mem member)

theorem httpSplit_chunked (whole : message.headers = init ++ [last]) (next : Bytes) :
    ∃ rawHeader, httpSplit (message.wire ++ next) =
      some
        { rawHeader
          status := message.status
          headers := foundHeaders init
          payload := Chunk.encodeAll message.chunks ++ next } := by
  have shape : message.wire ++ next =
      message.status ++ (crlf ++ (headerLines (init ++ [last]) ++
        (crlf ++ (Chunk.encodeAll message.chunks ++ next)))) := by
    simp [wire, whole]
  rw [shape]
  exact ⟨_, httpSplit_wire message.status init last _ message.statusPlain
    (whole ▸ message.namePlain) (whole ▸ message.valuePlain)⟩

/-- Where the map has the two lines of a chunked message, the body is decoded
right, but the next message is taken to start within the chunks. -/
theorem extractHttpParts_chunked (whole : message.headers = init ++ [last])
    (noLength : (foundHeaders init).lookup (ascii "content-length") = none)
    (noCoding : (foundHeaders init).lookup (ascii "content-encoding") = none)
    (chunked : lower (((foundHeaders init).lookup (ascii "transfer-encoding")).getD []) =
      ascii "chunked")
    (keepAlive : lower (((foundHeaders init).lookup (ascii "connection")).getD []) =
      ascii "keep-alive") (next : Bytes) :
    extractHttpParts gunzip (message.wire ++ next) =
      .ok (some
        ({ status := message.status
           headers := foundHeaders init
           payload := Chunk.encodeAll message.chunks ++ next },
          (Chunk.encodeAll message.chunks ++ next).drop (Chunk.body message.chunks).length)) := by
  obtain ⟨rawHeader, split⟩ := message.httpSplit_chunked whole next
  have enough : message.chunks.length <
      (Chunk.encodeAll message.chunks ++ next).length + 1 := by
    have shorter := Chunk.length_le_encodeAll message.chunks
    rw [List.length_append]
    omega
  have part : partPayload (foundHeaders init) (Chunk.encodeAll message.chunks ++ next) =
      .ok (Chunk.body message.chunks) := by
    simp only [partPayload, contentLength, noLength, ne_eq, not_true_eq_false, if_false, chunked,
      if_true]
    rw [chunkLoop_encodeAll _ _ _ enough _ (by omega), List.nil_append]
  simp only [extractHttpParts, split, part, keepAlive, if_true, decompress, noCoding]

/-- No chunked message is read right: its payload is never the decoded body. -/
theorem not_readRight (next : Bytes) : ¬ message.ReadRight gunzip next := by
  intro found
  rcases found with ⟨parts, extracted, -, payload⟩
  obtain ⟨init, last, whole⟩ := message.exists_last
  obtain ⟨rawHeader, split⟩ := message.httpSplit_chunked whole next
  obtain ⟨bits, part, split', -, -, rfl, -⟩ := extractHttpParts_eq_some extracted
  obtain rfl := Option.some.inj (split.symm.trans split')
  have longer := Chunk.length_body_lt message.chunks
  rw [← payload, List.length_append] at longer
  omega

def letterChunk : Chunk where
  size := [49]
  data := [65]
  sizeDigits := ⟨List.cons_ne_nil _ _, List.forall_mem_singleton.mpr (by decide)⟩
  sizeValue := by decide
  dataNonempty := by decide

def letterMessage : ChunkedMessage where
  status := ascii "HTTP/1.1 206 OK"
  headers :=
    [(ascii "Transfer-Encoding", ascii "chunked"), (ascii "Connection", ascii "keep-alive"),
      (ascii "Server", ascii "x")]
  chunks := [letterChunk]
  statusPlain := by decide
  namePlain := by decide
  valuePlain := by decide
  transferEncoding := ⟨_, List.mem_cons_self, rfl, rfl⟩
  connection := ⟨_, List.mem_cons_of_mem _ List.mem_cons_self, rfl, rfl⟩
  noLength := by decide

/-- A body of one letter: the payload still has its size line, and the rest
starts behind the first byte of the chunk. -/
theorem letter_misread : ¬ letterMessage.ReadRight (fun data => .ok data) [] := by
  intro found
  rcases found with ⟨parts, extracted, -, payload⟩
  have whole : letterMessage.headers =
      [(ascii "Transfer-Encoding", ascii "chunked"), (ascii "Connection", ascii "keep-alive")] ++
        [(ascii "Server", ascii "x")] := rfl
  have taken := letterMessage.extractHttpParts_chunked (fun data => .ok data) whole
    (by decide) (by decide) (by decide) (by decide) []
  rw [extracted, Except.ok.injEq, Option.some.injEq, Prod.mk.injEq] at taken
  rw [taken.1] at payload
  exact absurd payload (by decide)

end ChunkedMessage

end Packetpig
