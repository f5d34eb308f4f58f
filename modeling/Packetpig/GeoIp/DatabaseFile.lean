/-
Database files written from a tree of prefixes with a piece of data for some of
them, and what a service that has opened such a file finds.

The repository has no writer: the layout is that of the comments and constants
of the reader.
-/

import Packetpig.GeoIp.TreeWalk
import Packetpig.GeoIp.Caches

namespace Packetpig

open Text PrefixTree

def littleEndianBytes (width number : Nat) : Bytes := (Radix.digits width number).reverse

@[simp] theorem littleEndianBytes_length (width number : Nat) :
    (littleEndianBytes width number).length = width := by
  rw [littleEndianBytes, List.length_reverse, Radix.digits_length]

theorem littleEndian_littleEndianBytes (width : Nat) {number : Nat} (small : number < 256 ^ width) :
    LookupService.littleEndian (littleEndianBytes width number) = number := by
  rw [LookupService.littleEndian, littleEndianBytes, List.reverse_reverse, Radix.value_digits,
    Nat.mod_eq_of_lt small]

/-! ### The tree -/

def nodeBytes (recordLength : Nat) (pair : Nat × Nat) : Bytes :=
  littleEndianBytes recordLength pair.1 ++ littleEndianBytes recordLength pair.2

def treeBytes (recordLength : Nat) (table : List (Nat × Nat)) : Bytes :=
  table.flatMap (nodeBytes recordLength)

theorem nodeBytes_length (recordLength : Nat) (pair : Nat × Nat) :
    (nodeBytes recordLength pair).length = 2 * recordLength := by
  rw [nodeBytes, List.length_append, littleEndianBytes_length, littleEndianBytes_length]
  omega

theorem treeBytes_length (recordLength : Nat) (table : List (Nat × Nat)) :
    (treeBytes recordLength table).length = 2 * recordLength * table.length := by
  induction table with
  | nil => rfl
  | cons pair table ih =>
      unfold treeBytes at ih ⊢
      rw [List.flatMap_cons, List.length_append, nodeBytes_length, ih, List.length_cons,
        Nat.mul_succ, Nat.add_comm]

theorem drop_treeBytes (recordLength : Nat) {place : Nat} {table : List (Nat × Nat)} {pair : Nat × Nat}
    (found : table[place]? = some pair) (rest : Bytes) :
    ∃ after, (treeBytes recordLength table ++ rest).drop (2 * recordLength * place) =
      nodeBytes recordLength pair ++ after ++ rest := by
  induction table generalizing place with
  | nil => cases found
  | cons first table ih =>
      cases place with
      | zero =>
          cases found
          exact ⟨treeBytes recordLength table, rfl⟩
      | succ place =>
          obtain ⟨after, dropped⟩ := ih found
          refine ⟨after, ?_⟩
          have front := nodeBytes_length recordLength first
          rw [← dropped, treeBytes, List.flatMap_cons, Nat.mul_succ, Nat.add_comm,
            ← List.drop_drop, List.append_assoc, ← front, List.drop_left, front]
          rfl

namespace LookupService

private theorem record_nodeBytes {service : LookupService} {left right : Nat} {after : Bytes}
    (narrow : service.recordLength ≤ MAX_RECORD_LENGTH)
    (fits : left < 256 ^ service.recordLength ∧ right < 256 ^ service.recordLength)
    (positive : left < intBound ∧ right < intBound) {buf : Bytes}
    (same : buf = (nodeBytes service.recordLength (left, right) ++ after).take
      (2 * MAX_RECORD_LENGTH)) :
    service.record buf 0 = left ∧ service.record buf 1 = right := by
  have first : service.recordLength ≤ 2 * MAX_RECORD_LENGTH := 
    narrow.trans (Nat.le_mul_of_pos_left _ Nat.two_pos)
  have second : service.recordLength ≤ 2 * MAX_RECORD_LENGTH - service.recordLength := by
    clear fits
    omega
  subst same
  unfold record
  constructor
  · rw [Nat.zero_mul, List.drop_zero, List.take_take, Nat.min_eq_left first, nodeBytes,
      List.append_assoc, List.take_left' (littleEndianBytes_length _ _),
      littleEndian_littleEndianBytes _ fits.1]
    exact javaInt_natCast positive.1
  · rw [Nat.one_mul, List.drop_take, List.take_take, Nat.min_eq_left second, nodeBytes,
      List.append_assoc, List.drop_left' (littleEndianBytes_length _ _),
      List.take_left' (littleEndianBytes_length _ _), littleEndian_littleEndianBytes _ fits.2]
    exact javaInt_natCast positive.2

private theorem readNode_of_table {service : LookupService} {table : List (Nat × Nat)}
    {rest : Bytes}
    (cached : service.storage = .memoryCache (treeBytes service.recordLength table ++ rest))
    (wide : STANDARD_RECORD_LENGTH ≤ service.recordLength) (more : 2 ≤ rest.length)
    (small : (treeBytes service.recordLength table ++ rest).length < intBound)
    {place : Nat} {pair : Nat × Nat} (found : table[place]? = some pair) (buf : Bytes) :
    ∃ after buf', service.readNode place buf = .ok buf' ∧
      buf'.length = 2 * MAX_RECORD_LENGTH ∧
      buf' = (nodeBytes service.recordLength pair ++ after).take (2 * MAX_RECORD_LENGTH) := by
  obtain ⟨after, dropped⟩ := drop_treeBytes service.recordLength found rest
  have place_lt := (List.getElem?_eq_some_iff.mp found).1
  have node := nodeBytes_length service.recordLength pair
  have total := treeBytes_length service.recordLength table
  rw [List.length_append] at small
  have inside : 2 * service.recordLength * place + 2 * service.recordLength ≤
      (treeBytes service.recordLength table).length := by
    rw [total, ← Nat.mul_succ]
    exact Nat.mul_le_mul_left _ place_lt
  have enough : 2 * MAX_RECORD_LENGTH ≤ 2 * service.recordLength + rest.length := by
    unfold STANDARD_RECORD_LENGTH at wide
    unfold MAX_RECORD_LENGTH
    omega
  have reached : 2 * service.recordLength * place + 2 * MAX_RECORD_LENGTH ≤
      (treeBytes service.recordLength table ++ rest).length := by
    rw [List.length_append]
    omega
  have start : javaInt (2 * service.recordLength * place) =
      ((2 * service.recordLength * place : Nat) : Int) := by
    have exact : javaInt ((2 * service.recordLength * place : Nat) : Int) = _ :=
      javaInt_natCast (by omega)
    push_cast at exact ⊢
    exact exact
  refine ⟨after ++ rest, _, ?_, ?_, rfl⟩
  · unfold readNode
    rw [cached]
    dsimp only
    unfold arrayElements
    rw [start, if_neg (Int.not_lt.mpr (Int.natCast_nonneg _)), Int.toNat_natCast,
      if_neg (Nat.not_lt.mpr reached), dropped, List.append_assoc]
  · rw [List.length_take, List.length_append, List.length_append, node]
    omega

theorem nodeAt_of_table {service : LookupService} {table : List (Nat × Nat)} {rest : Bytes}
    (cached : service.storage = .memoryCache (treeBytes service.recordLength table ++ rest))
    (wide : STANDARD_RECORD_LENGTH ≤ service.recordLength)
    (narrow : service.recordLength ≤ MAX_RECORD_LENGTH) (more : 2 ≤ rest.length)
    (small : (treeBytes service.recordLength table ++ rest).length < intBound)
    {place left right : Nat} (found : table[place]? = some (left, right))
    (fits : left < 256 ^ service.recordLength ∧ right < 256 ^ service.recordLength)
    (positive : left < intBound ∧ right < intBound) : service.NodeAt place left right := by
  intro buf _
  obtain ⟨after, buf', read, full, same⟩ := readNode_of_table cached wide more small found buf
  exact ⟨buf', read, full, record_nodeBytes narrow fits positive same⟩

theorem stored_of_cache {service : LookupService} {numbers : PrefixTree Nat} {rest : Bytes}
    (cached : service.storage =
      .memoryCache (treeBytes service.recordLength (layout 0 numbers) ++ rest))
    (wide : STANDARD_RECORD_LENGTH ≤ service.recordLength)
    (narrow : service.recordLength ≤ MAX_RECORD_LENGTH) (more : 2 ≤ rest.length)
    (small : (treeBytes service.recordLength (layout 0 numbers) ++ rest).length < intBound)
    {segments bound : Nat} (size : numbers.size ≤ segments) (nodes : segments ≤ bound)
    (leaves : ∀ entry ∈ numbers.entries, segments ≤ entry.2 ∧ entry.2 ≤ bound)
    (room : bound < 256 ^ service.recordLength) (positive : bound < intBound) :
    Stored service.NodeAt segments numbers (numbers.reference 0) := by
  have fits : 0 + numbers.size ≤ segments := by
    rw [Nat.zero_add]
    exact size
  have isStored := stored_layout (fun entry member => (leaves entry member).1) [] [] rfl fits
  apply Stored.mono _ isStored
  intro place left right found
  rw [List.nil_append, List.append_nil, List.length_nil] at found
  obtain ⟨leftLe, rightLe⟩ := layout_le (fun entry member => (leaves entry member).2)
    (fits.trans nodes) (left, right) (List.mem_of_getElem? found)
  exact nodeAt_of_table cached wide narrow more small found
    ⟨leftLe.trans_lt room, rightLe.trans_lt room⟩
    ⟨leftLe.trans_lt positive, rightLe.trans_lt positive⟩

end LookupService

namespace PrefixTree

def data : PrefixTree (Option Bytes) → Bytes
  | leaf none => []
  | leaf (some bytes) => bytes
  | node zero one => zero.data ++ one.data

/-- Where the data of each prefix begin; 0 stands for no data. -/
def offsets : Nat → PrefixTree (Option Bytes) → PrefixTree Nat
  | _, leaf none => leaf 0
  | start, leaf (some _) => leaf start
  | start, node zero one => node (offsets start zero) (offsets (start + zero.data.length) one)

@[simp] theorem size_offsets (start : Nat) (tree : PrefixTree (Option Bytes)) :
    (offsets start tree).size = tree.size := by
  induction tree generalizing start with
  | leaf found =>
      cases found with
      | none => rfl
      | some bytes => rfl
  | node zero one zeroIh oneIh => rw [offsets, size, size, zeroIh, oneIh]

theorem offsets_le (start : Nat) (tree : PrefixTree (Option Bytes)) :
    ∀ entry ∈ (offsets start tree).entries, entry.2 ≤ start + tree.data.length := by
  induction tree generalizing start with
  | leaf found =>
      intro entry member
      cases found with
      | none =>
          rw [List.mem_singleton.mp member]
          exact Nat.zero_le _
      | some bytes =>
          rw [List.mem_singleton.mp member]
          exact Nat.le_add_right _ _
  | node zero one zeroIh oneIh =>
      intro entry member
      rw [data, List.length_append]
      obtain ⟨bit, rest, -, member⟩ := mem_entries_node.mp member
      cases bit with
      | false =>
          have below := zeroIh start (rest, entry.2) member
          dsimp only at below
          omega
      | true =>
          have below := oneIh (start + zero.data.length) (rest, entry.2) member
          dsimp only at below
          omega

theorem follow_offsets {tree : PrefixTree (Option Bytes)} {bits : List Bool}
    {found : Option Bytes} {length : Nat} (start : Nat)
    (reached : tree.follow bits = some (found, length)) :
    ∃ offset, (offsets start tree).follow bits = some (offset, length) ∧
      (found = none → offset = 0) ∧
      ∀ bytes, found = some bytes → ∃ front back,
        tree.data = front ++ bytes ++ back ∧ offset = start + front.length := by
  induction tree generalizing start bits length with
  | leaf stored =>
      cases reached
      cases found with
      | none =>
          refine ⟨0, rfl, fun _ => rfl, ?_⟩
          intro bytes impossible
          cases impossible
      | some stored =>
          refine ⟨start, rfl, ?_, ?_⟩
          · intro impossible
            cases impossible
          · intro bytes same
            cases same
            refine ⟨[], [], ?_, rfl⟩
            rw [data, List.nil_append, List.append_nil]
  | node zero one zeroIh oneIh =>
      cases bits with
      | nil => cases reached
      | cons bit bits =>
          rw [follow_node, Option.map_eq_some_iff] at reached
          obtain ⟨⟨stored, depth⟩, reached, same⟩ := reached
          cases same
          rw [offsets, follow_node]
          cases bit with
          | false =>
              obtain ⟨offset, there, missing, present⟩ := zeroIh start reached
              refine ⟨offset, ?_, missing, ?_⟩
              · rw [if_neg Bool.false_ne_true, there]
                rfl
              · intro bytes same
                obtain ⟨front, back, whole, place⟩ := present bytes same
                refine ⟨front, back ++ one.data, ?_, place⟩
                rw [data, whole, List.append_assoc (front ++ bytes)]
          | true =>
              obtain ⟨offset, there, missing, present⟩ :=
                oneIh (start + zero.data.length) reached
              refine ⟨offset, ?_, missing, ?_⟩
              · rw [if_pos rfl, there]
                rfl
              · intro bytes same
                obtain ⟨front, back, whole, place⟩ := present bytes same
                refine ⟨zero.data ++ front, back, ?_, ?_⟩
                · rw [data, whole]
                  simp only [List.append_assoc]
                · rw [List.length_append]
                  omega

end PrefixTree

def editionOf (type : Byte) : Int :=
  let databaseType := (type.toNat : Int).bmod (2 ^ 8)
  if databaseType ≥ 106 then databaseType - 105 else databaseType

def structureInfo (type : Byte) (segments : Nat) : Bytes :=
  [255, 255, 255, type] ++ littleEndianBytes 3 segments

theorem structureInfo_length (type : Byte) (segments : Nat) :
    (structureInfo type segments).length = 7 := by
  rw [structureInfo, List.length_append, littleEndianBytes_length]
  rfl

namespace LookupService

open RandomAccessFile

theorem readFully_append (front back : Bytes) {place count : Nat}
    (fits : place + count ≤ back.length) :
    readFully (front ++ back) ((front.length + place : Nat) : Int) count =
      .ok ((back.drop place).take count) := by
  unfold readFully
  rw [if_neg (by omega), Int.toNat_natCast, List.length_append, if_neg (by omega),
    ← List.drop_drop, List.drop_left]

theorem findStructure_step {front back : Bytes} (place : Nat) {turns : Nat}
    (fits : place + 3 ≤ back.length)
    (other : (back.drop place).take 3 ≠ [255, 255, 255]) :
    findStructure (front ++ back) (turns + 1) ((front.length + place : Nat) : Int) =
      findStructure (front ++ back) turns ((front.length + place : Nat) - 1 : Int) := by
  conv_lhs => unfold findStructure
  rw [if_neg (by omega)]
  dsimp only
  rw [readFully_append _ _ fits]
  exact if_neg other

theorem findStructure_found {front back : Bytes} (place : Nat) {turns : Nat}
    (fits : place + 3 ≤ back.length)
    (same : (back.drop place).take 3 = [255, 255, 255]) :
    findStructure (front ++ back) (turns + 1) ((front.length + place : Nat) : Int) =
      .ok (some (front.length + place + 3)) := by
  conv_lhs => unfold findStructure
  rw [if_neg (by omega)]
  dsimp only
  rw [readFully_append _ _ fits]
  exact if_pos same

theorem findStructure_info (front : Bytes) {type : Byte} (notLast : type ≠ 255) {segments : Nat}
    (few : segments < 2 ^ 24 - 1) :
    findStructure (front ++ structureInfo type segments) STRUCTURE_INFO_MAX_SIZE
      ((front ++ structureInfo type segments).length - 3) = .ok (some (front.length + 3)) := by
  have value := littleEndian_littleEndianBytes 3 (show segments < 256 ^ 3 by omega)
  have width := littleEndianBytes_length 3 segments
  have notFull : littleEndianBytes 3 segments ≠ [255, 255, 255] := by
    intro full
    rw [full] at value
    have greatest : littleEndian [255, 255, 255] = 2 ^ 24 - 1 := by decide
    omega
  have start : (((front ++ structureInfo type segments).length : Nat) : Int) - 3 =
      ((front.length + 4 : Nat) : Int) := by
    rw [List.length_append, structureInfo, List.length_append, width]
    change ((front.length + (4 + 3) : Nat) : Int) - 3 = _
    omega
  rw [start]
  unfold structureInfo STRUCTURE_INFO_MAX_SIZE
  generalize littleEndianBytes 3 segments = bytes at width notFull
  match bytes, width with
  | [s0, s1, s2], _ =>
      -- From the last three bytes back to the mark.
      rw [findStructure_step 4 (by simp) (by simpa using notFull)]
      rw [show ((front.length + 4 : Nat) - 1 : Int) = ((front.length + 3 : Nat) : Int) by omega,
        findStructure_step 3 (by simp) (by simp [notLast]),
        show ((front.length + 3 : Nat) - 1 : Int) = ((front.length + 2 : Nat) : Int) by omega,
        findStructure_step 2 (by simp) (by simp [notLast]),
        show ((front.length + 2 : Nat) - 1 : Int) = ((front.length + 1 : Nat) : Int) by omega,
        findStructure_step 1 (by simp) (by simp [notLast]),
        show ((front.length + 1 : Nat) - 1 : Int) = ((front.length + 0 : Nat) : Int) by omega,
        findStructure_found 0 (by simp) (by simp)]

theorem readType_mark (front : Bytes) (type : Byte) (rest : Bytes) :
    readType (front ++ 255 :: 255 :: 255 :: type :: rest) (front.length + 3) =
      .ok (editionOf type) := by
  have read := readFully_append front (255 :: 255 :: 255 :: type :: rest)
    (show 3 + 1 ≤ (255 :: 255 :: 255 :: type :: rest).length by
      simp only [List.length_cons]
      omega)
  have byte : littleEndian [type] = type.toNat := by
    rw [littleEndian, List.reverse_singleton, ← List.nil_append [type], Radix.value_concat,
      Radix.value_nil, Nat.zero_mul, Nat.zero_add]
  have behind : ((255 :: 255 :: 255 :: type :: rest).drop 3).take 1 = [type] := rfl
  unfold readType
  rw [read, behind]
  simp only [bind, Except.bind, byte]
  rfl

end LookupService

/-! ### Whole files -/

/-- What is written into a file: its edition, and the data of the prefixes. The
first bit of an address leads to one of the two trees. -/
structure DatabaseTree where
  type : Byte
  zero : PrefixTree (Option Bytes)
  one : PrefixTree (Option Bytes)

namespace DatabaseTree

open LookupService

variable (database : DatabaseTree)

def tree : PrefixTree (Option Bytes) := .node database.zero database.one

def recordLength : Nat :=
  if standardEditions.contains (editionOf database.type) then STANDARD_RECORD_LENGTH
  else ORG_RECORD_LENGTH

def segments : Nat := database.tree.size

/-- The numbers at the leaves; the first byte of the data is not used. -/
def numbers : PrefixTree Nat := (offsets 1 database.tree).map (database.segments + ·)

def table : List (Nat × Nat) := layout 0 database.numbers

def content : Bytes :=
  treeBytes database.recordLength database.table ++ 0 :: database.tree.data

def file : Bytes := database.content ++ structureInfo database.type database.segments

end DatabaseTree

open LookupService in
/-- A tree of an edition with its number of segments in the file, of a size that
the records, the structure info and an `int` have room for. -/
structure Database extends DatabaseTree where
  edition : segmentEditions.contains (editionOf type) = true
  few : toDatabaseTree.segments < 2 ^ 24 - 1
  room : toDatabaseTree.segments + 1 + toDatabaseTree.tree.data.length <
    256 ^ toDatabaseTree.recordLength
  small : toDatabaseTree.file.length < intBound

namespace Database

open LookupService

variable (database : Database)

def service : LookupService :=
  { databaseType := editionOf database.type
    databaseSegments := some database.segments
    recordLength := database.recordLength
    storage := .memoryCache database.file }

theorem service_databaseType : database.service.databaseType = editionOf database.type := by
  dsimp only [service]

theorem service_storage : database.service.storage = .memoryCache database.file := by
  dsimp only [service]

theorem service_segments : database.service.databaseSegments = some database.segments := by
  dsimp only [service]

theorem service_recordLength : database.service.recordLength = database.recordLength := by
  dsimp only [service]

private theorem type_ne : database.type ≠ 255 := by
  intro same
  have edition := database.edition
  rw [same] at edition
  exact absurd edition (by decide)

private theorem plain_editions : ∀ edition ∈ segmentEditions,
    edition ≠ DatabaseInfo.REGION_EDITION_REV0 ∧ edition ≠ DatabaseInfo.REGION_EDITION_REV1 ∧
      countryEditions.contains edition = false := by
  decide

private theorem readSegments_file :
    readSegments database.file (database.content.length + 3) (editionOf database.type) =
      .ok database.service.toDatabaseStructure := by
  obtain ⟨notFirst, notSecond, -⟩ :=
    plain_editions _ (List.contains_iff_mem.mp database.edition)
  have read := readFully_append database.content
    (structureInfo database.type database.segments)
    (show 4 + 3 ≤ (structureInfo database.type database.segments).length by
      rw [structureInfo_length])
  have behind : ((structureInfo database.type database.segments).drop 4).take 3 =
      littleEndianBytes 3 database.segments :=
    List.take_of_length_le (by
      change (littleEndianBytes 3 database.segments).length ≤ 3
      rw [littleEndianBytes_length])
  rw [behind] at read
  have segments := littleEndian_littleEndianBytes 3 (database.few.trans (by decide))
  unfold readSegments
  rw [if_neg notFirst, if_neg notSecond, if_pos database.edition]
  change (RandomAccessFile.readFully (database.content ++ _)
    ((database.content.length + 4 : Nat) : Int) 3 >>= _) = _
  rw [read]
  simp only [bind, Except.bind, segments]
  rfl

theorem readStructure_file :
    readStructure database.file = .ok database.service.toDatabaseStructure := by
  obtain ⟨-, -, notCountry⟩ := plain_editions _ (List.contains_iff_mem.mp database.edition)
  have found := findStructure_info database.content database.type_ne database.few
  have notCountry' :
      ¬ countryEditions.contains database.service.toDatabaseStructure.databaseType = true := by
    rw [service_databaseType, notCountry]
    exact Bool.false_ne_true
  unfold readStructure
  have type : readType database.file (database.content.length + 3) =
      .ok (editionOf database.type) :=
    readType_mark database.content database.type (littleEndianBytes 3 database.segments)
  rw [DatabaseTree.file, found]
  simp only [bind, Except.bind]
  rw [← DatabaseTree.file, type]
  simp only
  rw [readSegments_file]
  simp only
  rw [if_neg notCountry']
  rfl

theorem new_file : new GEOIP_MEMORY_CACHE database.file = .ok database.service :=
  new_memoryCache database.readStructure_file database.service_storage database.small

private theorem recordLength_cases :
    database.recordLength = 3 ∨ database.recordLength = 4 := by
  unfold DatabaseTree.recordLength
  split
  · exact .inl rfl
  · exact .inr rfl

private theorem bound_lt : database.segments + 1 + database.tree.data.length < intBound := by
  have small := database.small
  have wide : 2 ≤ 2 * database.recordLength := by
    rcases database.recordLength_cases with same | same
    · omega
    · omega
  have content : database.content.length =
      2 * database.recordLength * database.segments + (database.tree.data.length + 1) := by
    rw [DatabaseTree.content, List.length_append, treeBytes_length, DatabaseTree.table,
      layout_length, DatabaseTree.numbers, size_map, size_offsets, List.length_cons]
    rfl
  rw [DatabaseTree.file, List.length_append, content] at small
  have segments := Nat.mul_le_mul_right database.segments wide
  clear content
  omega

theorem numbers_entries : ∀ entry ∈ database.numbers.entries,
    database.segments ≤ entry.2 ∧ entry.2 ≤ database.segments + 1 + database.tree.data.length := by
  intro entry member
  rw [DatabaseTree.numbers, entries_map, List.mem_map] at member
  rcases member with ⟨⟨bits, offset⟩, inOffsets, same⟩
  have below := offsets_le 1 database.tree _ inOffsets
  subst same
  dsimp only at below ⊢
  omega

theorem stored : Stored database.service.NodeAt database.segments database.numbers 0 := by
  have size : database.numbers.size ≤ database.segments := by
    rw [DatabaseTree.numbers, size_map, size_offsets]
    exact Nat.le_refl _
  have file : database.file = treeBytes database.service.recordLength database.table ++
      (0 :: database.tree.data ++ structureInfo database.type database.segments) := by
    rw [service_recordLength, DatabaseTree.file, DatabaseTree.content, List.append_assoc]
  have cached := database.service_storage
  have small := database.small
  have room := database.room
  rw [file] at cached small
  rw [← database.service_recordLength] at room
  apply stored_of_cache cached _ _ _ small size (by omega) database.numbers_entries room
    database.bound_lt
  · rw [database.service_recordLength]
    unfold STANDARD_RECORD_LENGTH
    rcases database.recordLength_cases with same | same
    · omega
    · omega
  · rw [database.service_recordLength]
    unfold MAX_RECORD_LENGTH
    rcases database.recordLength_cases with same | same
    · omega
    · omega
  · rw [List.length_append, structureInfo_length]
    omega

/-- The numbers that stand for a piece of data, or for none. -/
inductive Points : Option Bytes → Int → Prop
  | nothing : Points none (database.segments : Nat)
  | data {front bytes back : Bytes} (whole : database.tree.data = front ++ bytes ++ back) :
      Points (some bytes) (database.segments + (1 + front.length) : Nat)

theorem follow_numbers {bits : List Bool} {found : Option Bytes} {length : Nat}
    (reached : database.tree.follow bits = some (found, length)) :
    ∃ value : Nat, database.numbers.follow bits = some (value, length) ∧
      database.Points found value := by
  obtain ⟨offset, there, missing, present⟩ := follow_offsets 1 reached
  refine ⟨database.segments + offset, ?_, ?_⟩
  · rw [DatabaseTree.numbers, follow_map, there]
    rfl
  · cases found with
    | none =>
        rw [missing rfl]
        exact .nothing
    | some bytes =>
        obtain ⟨front, back, whole, place⟩ := present bytes rfl
        rw [place]
        exact .data whole

theorem seekCountry_file {address : InetAddress} {found : Option Bytes} {length : Nat}
    (reached : database.tree.follow address.longBits = some (found, length)) :
    ∃ value, database.service.seekCountry (bytesToLong address) =
      .ok { value, netmask := some length } ∧ database.Points found value := by
  obtain ⟨value, there, points⟩ := database.follow_numbers reached
  refine ⟨value, ?_, points⟩
  have walked := seekCountry_of_stored database.service_segments database.stored address
  change _ = Except.ok (Seek.ofEntry 0 (database.numbers.follow address.longBits)) at walked
  rw [walked, there, Seek.ofEntry, Nat.zero_add]

theorem seekCountryV6_file {address : InetAddress} (long : address.bytes.length = 16)
    {found : Option Bytes} {length : Nat}
    (reached : database.tree.follow address.bits = some (found, length)) :
    ∃ value, database.service.seekCountryV6 address =
      .ok { value, netmask := some length } ∧ database.Points found value := by
  obtain ⟨value, there, points⟩ := database.follow_numbers reached
  refine ⟨value, ?_, points⟩
  have walked := seekCountryV6_of_stored database.service_segments database.stored long
  change _ = Except.ok (Seek.ofEntry 0 (database.numbers.follow address.bits)) at walked
  rw [walked, there, Seek.ofEntry, Nat.zero_add]

private theorem take_fill {bytes : Bytes} {size : Nat} :
    bytes.take size ++ List.replicate (size - (bytes.take size).length) 0 =
      (bytes ++ List.replicate size 0).take size := by
  rw [List.take_append, List.take_replicate, List.length_take]
  congr 2
  omega

private theorem drop_file {front bytes back : Bytes}
    (whole : database.tree.data = front ++ bytes ++ back) :
    database.file.drop (2 * database.recordLength * database.segments + (1 + front.length)) =
      bytes ++ (back ++ structureInfo database.type database.segments) := by
  have tree : (treeBytes database.recordLength database.table).length =
      2 * database.recordLength * database.segments := by
    rw [treeBytes_length, DatabaseTree.table, layout_length, DatabaseTree.numbers, size_map,
      size_offsets]
    rfl
  rw [DatabaseTree.file, DatabaseTree.content, whole, ← tree, ← List.drop_drop,
    List.append_assoc, List.drop_left, Nat.add_comm 1, List.cons_append, List.drop_succ_cons]
  simp only [List.append_assoc, List.drop_left]

theorem copyData_points {bytes : Bytes} {value : Int} (points : database.Points (some bytes) value)
    (size : Nat) :
    value ≠ database.segments ∧ ∃ rest,
      copyData database.file (database.service.recordPointer database.segments value) size =
        .ok ((bytes ++ rest).take size) ∧ size ≤ (bytes ++ rest).length := by
  cases points with
  | @data front _ back whole =>
      have dropped := database.drop_file whole
      have lengths := congrArg List.length dropped
      rw [List.length_drop, List.length_append, List.length_append, structureInfo_length]
        at lengths
      have small := database.small
      have pointer : database.service.recordPointer database.segments
          ((database.segments + (1 + front.length) : Nat) : Int) =
          ((2 * database.recordLength * database.segments + (1 + front.length) : Nat) : Int) := by
        rw [recordPointer, service_recordLength]
        have sum : ((database.segments + (1 + front.length) : Nat) : Int) +
            (2 * (database.recordLength : Int) - 1) * database.segments =
            ((2 * database.recordLength * database.segments + (1 + front.length) : Nat) : Int) := by
          push_cast
          ring
        rw [sum]
        exact javaInt_natCast (by omega)
      refine ⟨by omega, back ++ structureInfo database.type database.segments ++
        List.replicate size 0, ?_, ?_⟩
      · rw [pointer, copyData, if_neg, Int.toNat_natCast, dropped]
        · dsimp only
          rw [take_fill]
          simp only [List.append_assoc]
        · rw [Int.toNat_natCast]
          omega
      · rw [List.length_append, List.length_append, List.length_replicate]
        omega

end Database

end Packetpig
