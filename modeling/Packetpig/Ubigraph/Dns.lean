/-
dns.py of the Ubigraph visualisation: every row adds the domain in its fourth
column, one vertex for each new suffix of the name and one edge for each label.
-/

import Packetpig.Exceptions
import Mathlib.Data.List.AList

namespace Packetpig.Ubigraph

open Text

/-- The server that numbers the vertices, and the attributes that the script
computes with floats from the number of sections of a name. -/
structure Server where
  newVertex : List Nat → Nat
  newVertex_fresh : ∀ ids, newVertex ids ∉ ids
  color : Nat → Bytes
  size : Nat → Bytes

structure Vertex where
  id : Nat
  shape : Bytes
  color : Bytes
  label : Option Bytes
  size : Bytes
deriving DecidableEq, Repr

structure Dns where
  names : AList fun _ : Bytes => Nat
  vertices : List Vertex
  edges : List (Nat × Nat)

def dot : Byte := 46

namespace Dns

/-- After `clear`. -/
def init : Dns := { names := ∅, vertices := [], edges := [] }

def ids (dns : Dns) : List Nat := dns.vertices.map Vertex.id

/-- The text beside a vertex, without the `.-` at the end. -/
def label (key : Bytes) : Option Bytes :=
  if (key.splitOn dot).length < 7 then
    if ascii ".-" <:+ key then some (key.take (key.length - 2)) else some key
  else none

def cachedNode (server : Server) (dns : Dns) (key : Bytes) : Nat × Dns :=
  match dns.names.lookup key with
  | some vertex => (vertex, dns)
  | none =>
      let si := (key.splitOn dot).length
      let v := server.newVertex dns.ids
      let vertex : Vertex :=
        { id := v
          shape := ascii "sphere"
          color := server.color si
          label := label key
          size := server.size si }
      (v, { dns with names := dns.names.insert key v, vertices := vertex :: dns.vertices })

/-- The third argument of the source is not used. -/
def node (server : Server) (dns : Dns) (fr to' : Bytes) (_s : Nat) : Dns :=
  let (frn, dns) := cachedNode server dns fr
  let (ton, dns) := cachedNode server dns to'
  { dns with edges := dns.edges ++ [(frn, ton)] }

/-- `'.'.join`. -/
def join (sections : List Bytes) : Bytes := [dot].intercalate sections

def addDomain (server : Server) (dns : Dns) (domain : Bytes) : Dns :=
  let dbits := domain.splitOn dot ++ [ascii "-"]
  (List.range (dbits.length - 1)).foldl
    (fun dns a =>
      node server dns (join (dbits.drop a)) (join (dbits.drop (a + 1))) ((a + 1) / 2))
    dns

def add (server : Server) (dns : Dns) (line : Bytes) : Except PyException Dns :=
  match (line.splitOn comma)[3]? with
  | none => .error .indexError
  | some domain => .ok (addDomain server dns domain)

/-- The loop of `go`, over lines that `strip` has shortened. -/
def addAll (server : Server) (lines : List Bytes) : Except PyException Dns :=
  lines.foldlM (add server) init

end Dns

end Packetpig.Ubigraph
