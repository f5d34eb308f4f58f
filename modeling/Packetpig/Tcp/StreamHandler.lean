/-
StreamHandler of tcp.py: one handler for the events of all TCP connections,
with a single list of packet timestamps, and the lines it prints.

Timestamps are of any type, with their text as a parameter; so is the emitter of
extracted files. The flags and calls that tell libnids to keep all data do not
appear: an event carries the data as libnids then has it.
-/

import Packetpig.Tcp.HttpHandler

namespace Packetpig

open Text

inductive NidsState where
  | justEst
  | data
  | close
  | timeout
  | reset
  | exiting
deriving DecidableEq, Repr

def NidsState.endState : NidsState → Option Bytes
  | close => some (ascii "close")
  | timeout => some (ascii "timeout")
  | reset => some (ascii "reset")
  | _ => none

structure TcpStream where
  saddr : Bytes
  sport : Nat
  daddr : Bytes
  dport : Nat
  nidsState : NidsState
  clientData : Bytes
  serverData : Bytes

/-- The dictionary `out`. The two data strings are deleted in most modes; an
empty `http` is a key that is not there. -/
structure OutRecord (τ : Type) where
  ts : τ
  timestamps : List τ
  src : Bytes
  sport : Nat
  dst : Bytes
  dport : Nat
  endState : Bytes
  cdata : Option Bytes
  sdata : Option Bytes
  cdatalen : Nat
  sdatalen : Nat
  http : List HttpRecord

/-- What one `print` writes: a dictionary as JSON, a message as JSON without its
payload, or a line of text. -/
inductive Printed (τ : Type) where
  | json (out : OutRecord τ)
  | convo (status : Bytes) (headers : HttpHeaders) (direction : Direction)
  | line (text : Bytes)

structure StreamSettings (τ : Type) where
  outputFormat : Bytes
  outputMode : Bytes
  str : τ → Bytes
  gunzip : Bytes → Except PyException Bytes
  bodyRows : List Bytes → List HttpRecord → Except PyException (List Bytes)

namespace StreamHandler

variable {τ : Type}

def VERBS : List Bytes :=
  [ascii "get", ascii "put", ascii "post", ascii "delete", ascii "head", ascii "http/1.0",
    ascii "http/1.1"]

/-- `len(split) > 1 and split[0].lower() in VERBS`. -/
def recognised (status : Bytes) : Bool :=
  match words status with
  | verb :: _ :: _ => lower verb ∈ VERBS
  | _ => false

/-- `[str(out[f]) for f in fields]`. -/
def base (settings : StreamSettings τ) (out : OutRecord τ) : List Bytes :=
  [settings.str out.ts, out.src, decimal out.sport, out.dst, decimal out.dport]

def headerLine (base : List Bytes) (convo : HttpRecord) (header : Bytes × Bytes) : Bytes :=
  [tab].intercalate
    (base ++ [replaceByte lineFeed space convo.status, convo.direction.text,
      replaceByte lineFeed space header.1, replaceByte lineFeed space header.2])

def headerLines (base : List Bytes) (http : List HttpRecord) : List Bytes :=
  http.flatMap fun convo =>
    if recognised convo.status then
      convo.headers.entries.map fun entry => headerLine base convo (entry.1, entry.2)
    else []

/-- `HttpRequestEmitter.emit`. -/
def requestRecords (http : List HttpRecord) : List (Printed τ) :=
  http.flatMap fun convo =>
    if recognised convo.status ∧ convo.direction = .s then
      [.convo convo.status convo.headers convo.direction]
    else []

def emitTsv (settings : StreamSettings τ) (out : OutRecord τ) :
    Except PyException (List (Printed τ)) :=
  if out.http = [] then .ok []
  else if settings.outputMode = ascii "http_body" then
    (settings.bodyRows (base settings out) out.http).map fun rows => rows.map .line
  else if settings.outputMode = ascii "http_headers" then
    .ok ((headerLines (base settings out) out.http).map .line)
  else if settings.outputMode = ascii "http_requests" then .ok (requestRecords out.http)
  else .ok []

def outRecord (settings : StreamSettings τ) (ts : τ) (packetTimestamps : List τ)
    (endState : Bytes) (tcp : TcpStream) (http : List HttpRecord) : OutRecord τ :=
  let kept (data : Bytes) : Option Bytes :=
    if settings.outputMode = ascii "file" then some data else none
  { ts
    timestamps := packetTimestamps
    src := tcp.saddr
    sport := tcp.sport
    dst := tcp.daddr
    dport := tcp.dport
    endState
    cdata := kept tcp.clientData
    sdata := kept tcp.serverData
    cdatalen := tcp.clientData.length
    sdatalen := tcp.serverData.length
    http }

def emit (settings : StreamSettings τ) (packetTimestamps : List τ) (tcp : TcpStream) :
    Except PyException (List (Printed τ)) :=
  match packetTimestamps with
  | [] => .error .indexError
  | ts :: _ =>
      match tcp.nidsState.endState with
      | none => .error .keyError
      | some endState =>
          match HttpHandler.process settings.gunzip tcp.serverData tcp.clientData with
          | .error exception => .error exception
          | .ok http =>
              let out := outRecord settings ts packetTimestamps endState tcp http
              if settings.outputFormat = ascii "json" then .ok [.json out]
              else if settings.outputFormat = ascii "tsv" then emitTsv settings out
              else .ok []

/-- `handle`: what is printed and the timestamps that are kept. An exception
leaves the callback with the list extended. -/
def handle (settings : StreamSettings τ) (packetTimestamps : List τ) (pktTs : τ)
    (tcp : TcpStream) : Except PyException (List (Printed τ)) × List τ :=
  let packetTimestamps := packetTimestamps ++ [pktTs]
  match tcp.nidsState with
  | .justEst => (.ok [], [pktTs])
  | .data => (.ok [], packetTimestamps)
  | .close | .timeout | .reset =>
      match emit settings packetTimestamps tcp with
      | .error exception => (.error exception, packetTimestamps)
      | .ok printed => (.ok printed, [])
  | .exiting => (.ok [], packetTimestamps)

structure Event (κ τ : Type) where
  connection : κ
  pktTs : τ
  tcp : TcpStream

/-- The events that the handler gets through, each with what it printed. An
exception that leaves the callback makes the script exit. -/
def runTrace {κ : Type} (settings : StreamSettings τ) :
    List τ → List (Event κ τ) → List (Event κ τ × List (Printed τ))
  | _, [] => []
  | packetTimestamps, event :: events =>
      match handle settings packetTimestamps event.pktTs event.tcp with
      | (.error _, _) => []
      | (.ok printed, packetTimestamps) =>
          (event, printed) :: runTrace settings packetTimestamps events

end StreamHandler

end Packetpig
