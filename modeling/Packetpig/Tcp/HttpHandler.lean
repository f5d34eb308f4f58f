/-
HttpHandler of tcp.py: cuts the bytes of one direction of a connection into
HTTP messages.

`gzip` is a parameter. An exception other than ParsingException that comes up
while a message is taken apart leaves `process` and is part of its result.
-/

import Packetpig.Exceptions
import Packetpig.Library.Pattern

namespace Packetpig

open Text

/-- `'s'` for the bytes sent to the server, `'c'` for those sent to the client. -/
inductive Direction where
  | s
  | c
deriving DecidableEq, Repr

def Direction.text : Direction → Bytes
  | s => ascii "s"
  | c => ascii "c"

/-- A header dictionary; the entries stand in the order of `items()`. -/
abbrev HttpHeaders := AList fun _ : Bytes => Bytes

structure HttpParts where
  status : Bytes
  headers : HttpHeaders
  payload : Bytes

structure HttpRecord extends HttpParts where
  direction : Direction

namespace HttpHandler

/-- `(?P<name>.*?): (?P<value>.*?)\r\n`, where a dot is any byte but `\n`. -/
def headerPattern : Pattern :=
  [.run true false 0 none (· ≠ lineFeed), .literal (ascii ": "),
    .run true false 0 none (· ≠ lineFeed), .literal crlf]

/-- `re.findall` with the names in lower case. -/
def headerPairs (header : Bytes) : List (Bytes × Bytes) :=
  (headerPattern.findAll header.length header).filterMap fun captures =>
    match captures with
    | [name, value] => some (lower name, value)
    | _ => none

/-- `dict(pairs)`: a later pair replaces an earlier one with the same key. -/
def dict (pairs : List (Bytes × Bytes)) : HttpHeaders :=
  pairs.foldl (fun headers pair => headers.insert pair.1 pair.2) ∅

structure HttpBits where
  rawHeader : Bytes
  status : Bytes
  headers : HttpHeaders
  payload : Bytes

def httpSplit (data : Bytes) : Option HttpBits :=
  match splitOnce (crlf ++ crlf) data with
  | none => none
  | some (rawHeader, payload) =>
      match splitOnce crlf rawHeader with
      | none => none
      | some (status, header) =>
          some { rawHeader, status, headers := dict (headerPairs header), payload }

/-- `int(headers.get('content-length', 0))`. -/
def contentLength (headers : HttpHeaders) : Except PyException Int :=
  match headers.lookup (ascii "content-length") with
  | none => .ok 0
  | some text =>
      match readInt 10 text with
      | some length => .ok length
      | none => .error .valueError

/-- `while remaining and chunksize`; every round shortens `remaining`. -/
def chunkLoop : Nat → Bytes → Int → Bytes → Except PyException Bytes
  | 0, _, _, partPayload => .ok partPayload
  | fuel + 1, remaining, chunksize, partPayload =>
      if remaining = [] ∨ chunksize = 0 then .ok partPayload
      else
        match splitOnce crlf remaining with
        | none => .ok partPayload
        | some (size, remaining) =>
            match readInt 16 size with
            | none => .error (.parsingException (ascii "Incorrect chunk header"))
            | some chunksize =>
                chunkLoop fuel (sliceFrom remaining (chunksize + 2)) chunksize
                  (partPayload ++ sliceTo remaining chunksize)

def decompress (gunzip : Bytes → Except PyException Bytes) (data : Bytes)
    (headers : HttpHeaders) : Except PyException Bytes :=
  match headers.lookup (ascii "content-encoding") with
  | none => .ok data
  | some encoding =>
      if encoding = [] then .ok data
      else if encoding = ascii "gzip" then
        match gunzip data with
        | .error (.ioError message) =>
            .error (.parsingException (ascii "Can not decompress: " ++ message))
        | .error (.zlibError message) =>
            .error (.parsingException (ascii "Can not decompress: " ++ message))
        | result => result
      else .error (.parsingException (ascii "Unknown encoding type: " ++ encoding))

def partPayload (headers : HttpHeaders) (payload : Bytes) : Except PyException Bytes :=
  match contentLength headers with
  | .error exception => .error exception
  | .ok length =>
      if length ≠ 0 then .ok (sliceTo payload length)
      else if lower ((headers.lookup (ascii "transfer-encoding")).getD []) = ascii "chunked" then
        chunkLoop (payload.length + 1) payload (-1) []
      else .ok []

/-- The decompressed part is computed and then dropped: the record keeps the
whole payload. -/
def extractHttpParts (gunzip : Bytes → Except PyException Bytes) (data : Bytes) :
    Except PyException (Option (HttpParts × Bytes)) :=
  match httpSplit data with
  | none => .ok none
  | some bits =>
      match partPayload bits.headers bits.payload with
      | .error exception => .error exception
      | .ok part =>
          let theRest :=
            if lower ((bits.headers.lookup (ascii "connection")).getD []) = ascii "keep-alive" then
              bits.payload.drop part.length
            else []
          match decompress gunzip part bits.headers with
          | .error exception => .error exception
          | .ok _ =>
              .ok (some
                ({ status := bits.status, headers := bits.headers, payload := bits.payload },
                  theRest))

/-- The records that `go` appends, and the exception that leaves it. -/
def go (gunzip : Bytes → Except PyException Bytes) (direction : Direction) :
    Nat → Bytes → List HttpRecord × Option PyException
  | 0, _ => ([], none)
  | fuel + 1, rest =>
      match extractHttpParts gunzip rest with
      | .error (.parsingException _) => ([], none)
      | .error exception => ([], some exception)
      | .ok none => ([], none)
      | .ok (some (data, rest)) =>
          let later := go gunzip direction fuel rest
          ({ data with direction } :: later.1, later.2)

/-- `inp['http']`, empty where the source leaves the key out. -/
def process (gunzip : Bytes → Except PyException Bytes) (sdata cdata : Bytes) :
    Except PyException (List HttpRecord) :=
  match go gunzip .s (sdata.length + 1) sdata with
  | (_, some exception) => .error exception
  | (server, none) =>
      match go gunzip .c (cdata.length + 1) cdata with
      | (_, some exception) => .error exception
      | (client, none) => .ok (server ++ client)

theorem httpSplit_eq_some {data : Bytes} {bits : HttpBits} (split : httpSplit data = some bits) :
    ∃ header, bits.rawHeader = bits.status ++ crlf ++ header ∧
      data = bits.rawHeader ++ (crlf ++ crlf) ++ bits.payload ∧
      bits.headers = dict (headerPairs header) := by
  unfold httpSplit at split
  cases outer : splitOnce (crlf ++ crlf) data with
  | none => simp only [outer, reduceCtorEq] at split
  | some halves =>
      rcases halves with ⟨rawHeader, payload⟩
      simp only [outer] at split
      cases inner : splitOnce crlf rawHeader with
      | none => simp only [inner, reduceCtorEq] at split
      | some lines =>
          rcases lines with ⟨status, header⟩
          simp only [inner, Option.some.injEq] at split
          subst split
          exact ⟨header, splitOnce_eq_some _ _ _ _ inner, splitOnce_eq_some _ _ _ _ outer, rfl⟩

theorem extractHttpParts_eq_some {gunzip : Bytes → Except PyException Bytes} {data rest : Bytes}
    {parts : HttpParts} (extracted : extractHttpParts gunzip data = .ok (some (parts, rest))) :
    ∃ bits part, httpSplit data = some bits ∧
      partPayload bits.headers bits.payload = .ok part ∧
      (∃ decoded, decompress gunzip part bits.headers = .ok decoded) ∧
      parts = { status := bits.status, headers := bits.headers, payload := bits.payload } ∧
      rest =
        if lower ((bits.headers.lookup (ascii "connection")).getD []) = ascii "keep-alive" then
          bits.payload.drop part.length
        else [] := by
  unfold extractHttpParts at extracted
  cases split : httpSplit data with
  | none => simp only [split, Except.ok.injEq, reduceCtorEq] at extracted
  | some bits =>
      simp only [split] at extracted
      cases part : partPayload bits.headers bits.payload with
      | error exception => simp only [part, reduceCtorEq] at extracted
      | ok part' =>
          simp only [part] at extracted
          cases decoded : decompress gunzip part' bits.headers with
          | error exception => simp only [decoded, reduceCtorEq] at extracted
          | ok decoded' =>
              simp only [decoded, Except.ok.injEq, Option.some.injEq, Prod.mk.injEq] at extracted
              rcases extracted with ⟨rfl, rfl⟩
              exact ⟨bits, part', rfl, part, ⟨decoded', decoded⟩, rfl, rfl⟩

theorem extractHttpParts_shorter {gunzip : Bytes → Except PyException Bytes} {data rest : Bytes}
    {parts : HttpParts} (extracted : extractHttpParts gunzip data = .ok (some (parts, rest))) :
    rest.length + 6 ≤ data.length := by
  obtain ⟨bits, part, split, -, -, -, rfl⟩ := extractHttpParts_eq_some extracted
  obtain ⟨header, first, whole, -⟩ := httpSplit_eq_some split
  have shorter : bits.payload.length + 6 ≤ data.length := by
    rw [whole, first]
    simp only [List.length_append, crlf, List.length_cons, List.length_nil]
    omega
  split
  · rw [List.length_drop]
    omega
  · rw [List.length_nil]
    omega

theorem go_fuel (gunzip : Bytes → Except PyException Bytes) (direction : Direction)
    (fuel : Nat) :
    ∀ (fuel' : Nat) (data : Bytes), data.length < fuel → data.length < fuel' →
      go gunzip direction fuel data = go gunzip direction fuel' data := by
  induction fuel with
  | zero =>
      intro fuel' data enough
      omega
  | succ fuel ih =>
      intro fuel' data enough enough'
      cases fuel' with
      | zero => omega
      | succ fuel' =>
          cases extracted : extractHttpParts gunzip data with
          | error exception => cases exception <;> simp only [go, extracted]
          | ok response =>
              cases response with
              | none => simp only [go, extracted]
              | some parts =>
                  have shorter := extractHttpParts_shorter extracted
                  simp only [go, extracted]
                  rw [ih fuel' parts.2 (by omega) (by omega)]

theorem chunk_shorter {remaining size rest : Bytes}
    (split : splitOnce crlf remaining = some (size, rest)) (chunksize : Int) :
    (sliceFrom rest (chunksize + 2)).length < remaining.length := by
  have whole := congrArg List.length (splitOnce_eq_some _ _ _ _ split)
  have bound := sliceFrom_length_le rest (chunksize + 2)
  simp only [List.length_append, crlf, List.length_cons, List.length_nil] at whole
  omega

theorem chunkLoop_fuel (fuel : Nat) :
    ∀ (fuel' : Nat) (remaining : Bytes) (chunksize : Int) (partPayload : Bytes),
      remaining.length < fuel → remaining.length < fuel' →
      chunkLoop fuel remaining chunksize partPayload =
        chunkLoop fuel' remaining chunksize partPayload := by
  induction fuel with
  | zero =>
      intro fuel' remaining chunksize partPayload enough
      omega
  | succ fuel ih =>
      intro fuel' remaining chunksize partPayload enough enough'
      cases fuel' with
      | zero => omega
      | succ fuel' =>
          simp only [chunkLoop]
          split
          · rfl
          · cases split : splitOnce crlf remaining with
            | none => rfl
            | some halves =>
                simp only
                cases number : readInt 16 halves.1 with
                | none => rfl
                | some chunksize' =>
                    have shorter := chunk_shorter split chunksize'
                    exact ih fuel' _ chunksize' _ (by omega) (by omega)

end HttpHandler

end Packetpig
