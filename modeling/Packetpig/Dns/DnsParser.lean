/-
dns_parser.py: one line of JSON for each UDP datagram on port 53 that decodes.
`json.dumps` is a parameter; the time stamp is that of the packet being handled.
-/

import Packetpig.Dns.DNS

namespace Packetpig

open Text

/-- A call of `udp_handler` and what `nids.get_pkt_ts()` answers during it. -/
structure Datagram where
  sport : Nat
  dport : Nat
  payload : Bytes
  ts : Rat

namespace DnsParser

/-- `while items: ... items.pop() ...`; every turn takes one item away. -/
def whilePop {α β : Type} (body : β → α → Except PyException β) :
    Nat → List α → β → Except PyException β
  | 0, _, result => .ok result
  | fuel + 1, items, result =>
      match items.getLast? with
      | none => .ok result
      | some item => do
          let result ← body result item
          whilePop body fuel items.dropLast result

/-- `for value in values: info[keys.pop()] = value`. -/
def popKeys : List Json → List Bytes → List (Bytes × Json) →
    Except PyException (List (Bytes × Json))
  | [], _, info => .ok info
  | value :: values, keys, info =>
      match keys.getLast? with
      | none => .error .indexError
      | some key => popKeys values keys.dropLast (Json.set key value info)

/-- `add_values`, where `section` is the list `res[key]`. -/
def addValues (keys : List Bytes) (res : List Json) (values : List Json) :
    Except PyException (List Json) := do
  let info ← popKeys values.reverse keys []
  return res ++ [.object info]

def questionKeys : List Bytes := [ascii "qname", ascii "qtype", ascii "qclass"]

def resourceKeys : List Bytes :=
  [ascii "qname", ascii "qtype", ascii "qclass", ascii "qttl", ascii "qrdata"]

def questionValues (question : DNSQuestion) : List Json :=
  [.text question.qname, .int question.qtype, .int question.qclass]

def resourceValues (resource : DNSResource) : List Json :=
  [.text resource.qname, .int resource.qtype, .int resource.qclass, .int resource.qttl,
    .object resource.qrdata]

def addSection {α : Type} (count : Nat) (entries : Except PyException (List α))
    (keys : List Bytes) (values : α → List Json) : Except PyException (List Json) :=
  if count > 0 then do
    let entries ← entries
    whilePop (fun res entry => addValues keys res (values entry)) entries.length
      entries.reverse []
  else .ok []

def result (frames : Nat) (ts : Rat) (d : DNS) : Except PyException Json := do
  let mode := if d.getFlags &&& DNSFlags.QR_RESPONSE ≠ 0 then ascii "response" else ascii "query"
  let questions ← addSection d.getQdcount (d.getQuestions frames) questionKeys questionValues
  let answers ← addSection d.getAncount (d.getAnswers frames) resourceKeys resourceValues
  let authoritatives ←
    addSection d.getNscount (d.getAuthoritatives frames) resourceKeys resourceValues
  let additionals ← addSection d.getArcount (d.getAdditionals frames) resourceKeys resourceValues
  return .object
    [(ascii "ts", .float ts), (ascii "mode", .text mode), (ascii "id", .int d.getTransactionId),
      (ascii "questions", .array questions), (ascii "answers", .array answers),
      (ascii "authoritatives", .array authoritatives), (ascii "additionals", .array additionals)]

/-- The body of the `try` block: the line to print, if any. -/
def handle (json : JsonLines) (frames : Nat) (datagram : Datagram) :
    Except PyException (Option Bytes) :=
  if datagram.sport = 53 ∨ datagram.dport = 53 then do
    let res ← result frames datagram.ts (DNS.new datagram.payload)
    match json.dumps res with
    | some line => return some line
    | none => .error .valueError
  else .ok none

/-- What a datagram adds to the output. An exception goes to the error stream. -/
def udpHandler (json : JsonLines) (frames : Nat) (datagram : Datagram) : Bytes :=
  match handle json frames datagram with
  | .ok (some line) => line ++ [lineFeed]
  | .ok none => []
  | .error _ => []

def output (json : JsonLines) (frames : Nat) (datagrams : List Datagram) : Bytes :=
  datagrams.flatMap (udpHandler json frames)

end DnsParser

end Packetpig
