/-
FingerprintRecordReader: collects what p0f prints about the two sides of a
connection and returns one tuple for each side.

The first call reads the whole transcript; the calls after it only move on in
the array that the first one has filled.
-/

import Packetpig.Library.JavaText
import Packetpig.Library.Pattern
import Packetpig.Pcap.PcapInputStream

namespace Packetpig

open Text

/-- The fields that `addField` knows. -/
inductive FingerprintField where
  | os
  | app
  | dist
  | lang
  | link
  | params
  | rawFreq
  | rawMtu
  | rawSig
  | uptime
deriving DecidableEq, Repr

namespace FingerprintField

def key : FingerprintField → Bytes
  | os => ascii "os"
  | app => ascii "app"
  | dist => ascii "dist"
  | lang => ascii "lang"
  | link => ascii "link"
  | params => ascii "params"
  | rawFreq => ascii "raw_freq"
  | rawMtu => ascii "raw_mtu"
  | rawSig => ascii "raw_sig"
  | uptime => ascii "uptime"

/-- The order in which `getTuple` appends the fields. -/
def all : List FingerprintField :=
  [os, app, dist, lang, link, params, rawFreq, rawMtu, rawSig, uptime]

end FingerprintField

/-- `tuple` holds what the four setters have appended. -/
structure FingerprintTuple where
  title : Bytes
  tuple : List Bytes
  fields : FingerprintField → Option Bytes

namespace FingerprintTuple

def new (title src sport dst dport : Bytes) : FingerprintTuple :=
  { title, tuple := [src, sport, dst, dport], fields := fun _ => none }

def addField (fingerprint : FingerprintTuple) (k v : Bytes) : FingerprintTuple :=
  { fingerprint with
    fields := fun field => if k = field.key then some v else fingerprint.fields field }

def anyGood (fingerprint : FingerprintTuple) : Bool :=
  FingerprintField.all.any fun field => (fingerprint.fields field).isSome

def getTuple (fingerprint : FingerprintTuple) : List (Option Bytes) :=
  fingerprint.tuple.map some ++ FingerprintField.all.map fingerprint.fields

end FingerprintTuple

namespace FingerprintRecordReader

def notSlash (letter : Byte) : Bool := letter ≠ 47

def titlePattern : Pattern :=
  [.literal (ascii " "), .run true true 1 none notSlash, .literal (ascii "/"),
    .run true true 1 none (isDigit 10), .literal (ascii " -> "),
    .run true true 1 none notSlash, .literal (ascii "/"), .run true true 1 none (isDigit 10)]

def fieldPattern : Pattern :=
  [.literal (ascii "| "), .run true false 0 none JavaText.dot, .literal (ascii " = "),
    .run true true 0 none JavaText.dot]

/-- The local variables of a call, the two records being made together, and the
array of the reader. -/
structure Scan where
  pending : Option (FingerprintTuple × FingerprintTuple)
  clientMode : Bool
  fingerprintArray : List FingerprintTuple

def flush (pending : Option (FingerprintTuple × FingerprintTuple)) : List FingerprintTuple :=
  match pending with
  | none => []
  | some (client, server) => [client, server].filter FingerprintTuple.anyGood

/-- The branch for a line that starts with a dot. The whole match consists of
the four groups and the text between them. -/
def titleLine (line : Bytes) (scan : Scan) : Except JavaException Scan :=
  match titlePattern.find line with
  | some ([src, sport, dst, dport], _) =>
      let title := ascii " " ++ (src ++ (ascii "/" ++ (sport ++ (ascii " -> " ++
        (dst ++ (ascii "/" ++ dport))))))
      if scan.pending.any fun pair => pair.1.title = title then .ok scan
      else
        .ok
          { scan with
            fingerprintArray := scan.fingerprintArray ++ flush scan.pending
            pending :=
              some (.new title src sport dst dport, .new title dst dport src sport) }
  | _ => .error .illegalStateException

def fieldLine (line : Bytes) (scan : Scan) : Except JavaException Scan :=
  match fieldPattern.find line with
  | some ([key, value], _) =>
      let k := JavaText.trim key
      let v := JavaText.trim value
      let clientMode := if k = ascii "client" then true else scan.clientMode
      let clientMode := if k = ascii "server" then false else clientMode
      match scan.pending with
      | none => .error .nullPointerException
      | some (client, server) =>
          let pair :=
            if clientMode then (client.addField k v, server) else (client, server.addField k v)
          .ok { scan with clientMode, pending := some pair }
  | _ => .error .illegalStateException

def scanLine (scan : Scan) (line : Bytes) : Except JavaException Scan :=
  if (ascii ".").isPrefixOf line then titleLine line scan
  else if (ascii "| ").isPrefixOf line then fieldLine line scan
  else .ok scan

/-- `while ((line = reader.readLine()) != null)`; every line shortens the text.
A line that throws leaves the array as it was. -/
def readLoop : Nat → Bytes → Scan → Option JavaException × Scan × Bytes
  | 0, text, scan => (none, scan, text)
  | fuel + 1, text, scan =>
      match JavaText.readLine text with
      | none => (none, scan, text)
      | some (line, rest) =>
          match scanLine scan line with
          | .error exception => (some exception, scan, rest)
          | .ok scan => readLoop fuel rest scan

end FingerprintRecordReader

/-- `fingerprints` is the iterator: what it has not returned yet. -/
structure FingerprintRecordReader where
  reader : Bytes
  fingerprintArray : List FingerprintTuple
  fingerprints : Option (List FingerprintTuple)

namespace FingerprintRecordReader

def initializeReader (output : Bytes) : FingerprintRecordReader :=
  { reader := output, fingerprintArray := [], fingerprints := none }

/-- The key of the record reader is never set. -/
def nextKeyValue (state : FingerprintRecordReader) :
    Pull FingerprintRecordReader (Keyed (List (Option Bytes))) Ending :=
  match readLoop state.reader.length state.reader ⟨none, true, state.fingerprintArray⟩ with
  | (some exception, scan, reader) =>
      .stop (.threw exception)
        { state with reader, fingerprintArray := scan.fingerprintArray }
  | (none, scan, reader) =>
      match state.fingerprints.getD scan.fingerprintArray with
      | [] => .stop .returnedFalse ⟨reader, scan.fingerprintArray, some []⟩
      | fingerprint :: fingerprints =>
          .item ⟨0, fingerprint.getTuple⟩ ⟨reader, scan.fingerprintArray, some fingerprints⟩

end FingerprintRecordReader

end Packetpig
