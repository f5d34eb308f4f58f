/-
HttpBodyDumpEmitter of tcp.py: each payload is written to a temporary file,
examined, and printed as a row, unless the filter for a mime type rejects it.

The libraries that examine a file (magic, mimetypes, hashlib) are parameters on
the content of the file; the file system is the list of the temporary files
that exist.
-/

import Packetpig.Tcp.StreamHandler

namespace Packetpig

open Text

structure BodyDumpSettings where
  mimeType : Option Bytes
  extractFiles : Bool
  mkstemp : List Bytes → Bytes
  mkstemp_fresh : ∀ names, mkstemp names ∉ names
  mimeFromFile : Bytes → Except PyException (Option Bytes)
  fromFile : Bytes → Except PyException Bytes
  guessExtension : Bytes → Option Bytes
  md5 : Bytes → Bytes
  sha1 : Bytes → Bytes
  sha256 : Bytes → Bytes

structure BodyDumpState where
  files : List (Bytes × Bytes)
  printed : List (List Bytes)

namespace HttpBodyDumpEmitter

/-- `[-_.() %s%s] % (string.ascii_letters, string.digits)`. -/
def validFilenameChar (letter : Byte) : Bool :=
  letter ∈ ascii "-_.() " || (97 ≤ letter && letter ≤ 122) || (65 ≤ letter && letter ≤ 90) ||
    (48 ≤ letter && letter ≤ 57)

/-- The second word of a status line as a file name: `bits[1]` with `_` for the
invalid letters, and its last 50 letters. -/
def nameFromStatus (status : Bytes) : Bytes :=
  match status.splitOn space with
  | _ :: target :: _ =>
      sliceFrom (target.map fun letter => if validFilenameChar letter then letter else 95) (-50)
  | _ => []

/-- The list is never empty here, so that index -1 means its last element. -/
def requestFilename (http : List HttpRecord) (offset : Nat) (convo : HttpRecord) : Bytes :=
  let name :=
    if convo.direction = .c then
      (item http ((offset : Int) - 1)).elim [] fun other => nameFromStatus other.status
    else []
  if name = [] then ascii "-" else name

/-- The conditions under which the source goes on with the next message. -/
def rejects (mimeType : Option Bytes) (mime ext : Bytes) : Bool :=
  let mimeType := mimeType.getD []
  if mimeType = [] then false
  else if 47 ∈ mimeType then mime ≠ mimeType
  else if 46 ∈ mimeType then ext ≠ mimeType
  else ext.drop 1 ≠ mimeType

def examinedColumns (settings : BodyDumpSettings) (filetype mime ext payload : Bytes) :
    List Bytes :=
  [filetype, mime, ext, settings.md5 payload, settings.sha1 payload, settings.sha256 payload,
    decimal payload.length]

def dump (settings : BodyDumpSettings) (base : List Bytes) (http : List HttpRecord)
    (state : BodyDumpState) (entry : HttpRecord × Nat) : Except PyException BodyDumpState := do
  let (convo, offset) := entry
  let filename := settings.mkstemp (state.files.map Prod.fst)
  let files := (filename, convo.payload) :: state.files
  let mime := (← settings.mimeFromFile convo.payload).getD []
  let ext := (settings.guessExtension mime).getD []
  let filetype := (← settings.fromFile convo.payload).filter (· ≠ comma)
  if rejects settings.mimeType mime ext then
    -- The file stays.
    pure { state with files }
  else
    let b := base ++ examinedColumns settings filetype mime ext convo.payload
    if settings.extractFiles then
      pure
        { files
          printed := state.printed ++ [b ++ [filename, requestFilename http offset convo]] }
    else
      pure
        { files := files.filter fun file => file.1 ≠ filename
          printed := state.printed ++ [b] }

def emit (settings : BodyDumpSettings) (files : List (Bytes × Bytes)) (base : List Bytes)
    (http : List HttpRecord) : Except PyException BodyDumpState :=
  http.zipIdx.foldlM (dump settings base http) { files, printed := [] }

def bodyRows (settings : BodyDumpSettings) (files : List (Bytes × Bytes)) (base : List Bytes)
    (http : List HttpRecord) : Except PyException (List Bytes) :=
  (emit settings files base http).map fun state => state.printed.map [tab].intercalate

end HttpBodyDumpEmitter

end Packetpig
