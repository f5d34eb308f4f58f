/-
The way of trigram counts to the cube viewer: the rows that Pig stores for
PacketNgramLoader, the script reduce-trigram.py, and `parse` in cube.html.
-/

import Packetpig.Packet.NgramRows
import Mathlib.Logic.Function.Basic

namespace Packetpig

open Text Radix

/-- A row of PacketNgramLoader as `PigStorage(',')` writes it, the key in front. -/
def storedRow (row : Keyed NgramRow) : Bytes :=
  [comma].intercalate
    [integer row.key, row.tuple.filterString, integer row.tuple.label.toInt,
      integer row.tuple.count.toInt]

def trigramRow (filterString : Bytes) (c : Bytes → Nat) (key : Bytes) : Bytes :=
  [comma].intercalate
    [decimal 0, filterString, integer (PacketNgramRecordReader.intValue 3 key).toInt,
      decimal (c key)]

def trigramFile (filterString : Bytes) (c : Bytes → Nat) : Bytes :=
  (keys 3).flatMap fun key => trigramRow filterString c key ++ [lineFeed]

theorem stored_rows {σ : Type} (input : PcapInputStream σ) (decode : PcapPacket → Frame)
    (filter : PacketFilter) {is final : σ} {packets : List PcapPacket}
    (run : input.Delivers is packets .ioException final) (cache : NgramCache)
    (counted : cache =
      (packets.map decode).foldl (PacketNgramRecordReader.countFrame filter 3) ∅)
    (small : ∀ key, (cache.count key).toNat < 2 ^ 31) :
    ∃ rows last, Yields (PacketNgramRecordReader.nextKeyValue input decode)
        (PacketNgramRecordReader.initializeReader filter 3 is) rows .returnedFalse last ∧
      rows.flatMap (fun row => storedRow row ++ [lineFeed]) =
        trigramFile filter.filterString fun key => (cache.count key).toNat := by
  obtain ⟨last, rows⟩ :=
    PacketNgramRecordReader.yields_rows input decode filter 3 (by omega) run
  refine ⟨_, last, rows, ?_⟩
  have stored : ∀ key, storedRow ⟨0, PacketNgramRecordReader.row filter 3 cache key⟩ =
      trigramRow filter.filterString (fun key => (cache.count key).toNat) key := by
    intro key
    have count : (cache.count key).toInt = (cache.count key).toNat :=
      Word.toInt_eq_toNat (small key)
    simp only [storedRow, trigramRow, PacketNgramRecordReader.row, count, integer_natCast]
    rfl
  rw [List.flatMap_map, ← counted, trigramFile]
  simp only [stored]

namespace ReduceTrigram

def n : Nat := 256
def d : Nat := 8

/-- The numbers in the key `'%i,%i,%i'`. -/
abbrev Bin := Int × Int × Int

def binOf (a : Int) : Bin :=
  let x := a % n
  let y := (a % n ^ 2 - x) / n
  let z := (a % n ^ 3 - x - y * n) / n ^ 2
  (x / d, y / d, z / d)

/-- The body of the loop over the lines; `new` is 0 where nothing was added. -/
def addLine (new : Bin → Int) (line : Bytes) : Except PyException (Bin → Int) :=
  let bits := (strip line).splitOn comma
  match bits[2]? with
  | none => .error .indexError
  | some label =>
      match readInt 10 label with
      | none => .error .valueError
      | some a =>
          match bits[3]? with
          | none => .error .indexError
          | some count =>
              match readInt 10 count with
              | none => .error .valueError
              | some v => .ok (Function.update new (binOf a) (new (binOf a) + v))

/-- `product(xrange(n), repeat=3)`: the last number changes fastest. -/
def product (n : Nat) : List (Nat × Nat × Nat) :=
  (List.range n).flatMap fun x =>
    (List.range n).flatMap fun y => (List.range n).map fun z => (x, y, z)

/-- `print ','.join(o)`. -/
def output (new : Bin → Int) : Bytes :=
  [comma].intercalate ((product n).map fun bin => integer (new (bin.1, bin.2.1, bin.2.2))) ++
    [lineFeed]

def reduceTrigram (file : Bytes) : Except PyException Bytes := do
  let new ← (fileLines file).foldlM addLine fun _ => 0
  return output new

end ReduceTrigram

namespace Cube

def n : Nat := 16

structure Entry where
  x : Nat
  y : Nat
  z : Nat
  v : Option Bytes

def parse (data : Bytes) : List Entry :=
  let data := data.splitOn comma
  (List.range (n ^ 3)).map fun a =>
    let x := a % n
    let y := (a % (n * n) - x) / n
    let z := (a % (n * n * n) - x - y * n) / (n * n)
    { x, y, z, v := data[a]? }

def Entry.value (entry : Entry) : Option Int := entry.v.bind (readInt 10)

end Cube

end Packetpig
