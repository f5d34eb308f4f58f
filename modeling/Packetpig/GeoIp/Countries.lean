/-
Country databases: the numbers at the leaves of the tree are the countries, and
the number of segments is not in the file.
-/

import Packetpig.GeoIp.Records

namespace Packetpig

open Text PrefixTree LookupService

namespace LookupService

def countryAt (index : Nat) : Country :=
  { code := ascii (countryCode.getD index ""), name := ascii (countryName.getD index "") }

private theorem countryName_length : countryName.length = countryCode.length := by
  decide +kernel

theorem country_known {index : Nat} (known : index < countryCode.length) :
    country index = .ok (countryAt index) := by
  have inNames : index < countryName.length := by
    rw [countryName_length]
    exact known
  unfold country countryAt
  rw [if_neg (Int.not_lt.mpr (Int.natCast_nonneg _)), Int.toNat_natCast,
    List.getElem?_eq_getElem known, List.getElem?_eq_getElem inNames,
    List.getD_eq_getElem _ _ known, List.getD_eq_getElem _ _ inNames]

private theorem codes_nodup : (countryCode.map fun code => Radix.value (ascii code)).Nodup :=
  (BitString.nodup_of_allFresh (show BitString.allFresh 0 _ = true by decide +kernel)).1

theorem code_injective {index index' : Nat} (known : index < countryCode.length)
    (known' : index' < countryCode.length)
    (same : (countryAt index).code = (countryAt index').code) : index = index' := by
  unfold countryAt at same
  dsimp only at same
  rw [List.getD_eq_getElem _ _ known, List.getD_eq_getElem _ _ known'] at same
  have inside : index < (countryCode.map fun code => Radix.value (ascii code)).length := by
    rw [List.length_map]
    exact known
  have inside' : index' < (countryCode.map fun code => Radix.value (ascii code)).length := by
    rw [List.length_map]
    exact known'
  have sameValue : (countryCode.map fun code => Radix.value (ascii code))[index] =
      (countryCode.map fun code => Radix.value (ascii code))[index'] := by
    rw [List.getElem_map, List.getElem_map, same]
  exact codes_nodup.getElem_inj_iff.mp sameValue

theorem countryOf_index {index : Nat} (known : index < countryCode.length) (netmask : Option Nat) :
    countryOf { value := (COUNTRY_BEGIN + index : Nat), netmask } = .ok (countryAt index) := by
  have few : countryCode.length < intBound := by
    decide +kernel
  have ret : javaInt (((COUNTRY_BEGIN + index : Nat) : Int) - COUNTRY_BEGIN) = index := by
    rw [Nat.cast_add, add_sub_cancel_left]
    exact javaInt_natCast (known.trans few)
  unfold countryOf
  dsimp only
  rw [ret]
  by_cases first : index = 0
  · subst first
    rw [if_pos Nat.cast_zero]
    rfl
  · rw [if_neg (by exact_mod_cast first), country_known known]

end LookupService

/-- A tree of indices into the table of countries, of an edition without a number
of segments in the file. -/
structure CountryDatabase (width : Nat) where
  type : Byte
  zero : PrefixTree (Fin countryCode.length)
  one : PrefixTree (Fin countryCode.length)
  edition : countryEditions.contains (editionOf type) = true
  few : (PrefixTree.node zero one).size ≤ COUNTRY_BEGIN
  shallow : (PrefixTree.node zero one).height ≤ width

namespace CountryDatabase

variable {width : Nat} (database : CountryDatabase width)

def tree : PrefixTree (Fin countryCode.length) := .node database.zero database.one

def numbers : PrefixTree Nat := database.tree.map fun index => COUNTRY_BEGIN + index.val

def file : Bytes :=
  treeBytes STANDARD_RECORD_LENGTH (layout 0 database.numbers) ++ [255, 255, 255, database.type]

def service : LookupService :=
  { databaseType := editionOf database.type
    databaseSegments := some COUNTRY_BEGIN
    recordLength := STANDARD_RECORD_LENGTH
    storage := .memoryCache database.file }

theorem service_segments : database.service.databaseSegments = some COUNTRY_BEGIN := by
  dsimp only [service]

theorem service_recordLength : database.service.recordLength = STANDARD_RECORD_LENGTH := by
  dsimp only [service]

theorem service_storage : database.service.storage = .memoryCache database.file := by
  dsimp only [service]

private theorem type_ne : database.type ≠ 255 := by
  intro same
  have edition := database.edition
  rw [same] at edition
  exact absurd edition (by decide)

private theorem plain_editions : ∀ edition ∈ countryEditions,
    edition ≠ DatabaseInfo.REGION_EDITION_REV0 ∧ edition ≠ DatabaseInfo.REGION_EDITION_REV1 ∧
      segmentEditions.contains edition = false := by
  decide

private theorem file_small : database.file.length < intBound := by
  have few := database.few
  rw [file, List.length_append, treeBytes_length, layout_length, numbers, size_map, tree]
  change 2 * STANDARD_RECORD_LENGTH * (node database.zero database.one).size + 4 < _
  unfold COUNTRY_BEGIN at few
  unfold STANDARD_RECORD_LENGTH intBound
  omega

private theorem findStructure_mark (front : Bytes) {type : Byte} (other : type ≠ 255) :
    findStructure (front ++ [255, 255, 255, type]) STRUCTURE_INFO_MAX_SIZE
      ((front ++ [255, 255, 255, type]).length - 3) = .ok (some (front.length + 3)) := by
  have start : (((front ++ [255, 255, 255, type]).length : Nat) : Int) - 3 =
      ((front.length + 1 : Nat) : Int) := by
    rw [List.length_append]
    change ((front.length + 4 : Nat) : Int) - 3 = _
    omega
  have before : ((front.length + 1 : Nat) - 1 : Int) = ((front.length + 0 : Nat) : Int) := by
    omega
  unfold STRUCTURE_INFO_MAX_SIZE
  rw [start, findStructure_step 1 (by simp) (by simp [other]), before,
    findStructure_found 0 (by simp) (by simp)]

private theorem readStructure_file :
    readStructure database.file = .ok database.service.toDatabaseStructure := by
  obtain ⟨notFirst, notSecond, notSegments⟩ :=
    plain_editions _ (List.contains_iff_mem.mp database.edition)
  have found := findStructure_mark
    (treeBytes STANDARD_RECORD_LENGTH (layout 0 database.numbers)) database.type_ne
  have read := readType_mark (treeBytes STANDARD_RECORD_LENGTH (layout 0 database.numbers))
    database.type []
  unfold readStructure
  rw [file, found]
  simp only [bind, Except.bind]
  rw [read]
  simp only [readSegments]
  rw [if_neg notFirst, if_neg notSecond, if_neg (by rw [notSegments]; exact Bool.false_ne_true)]
  simp only
  rw [if_pos database.edition]
  rfl

theorem new_file : new GEOIP_MEMORY_CACHE database.file = .ok database.service :=
  new_memoryCache database.readStructure_file database.service_storage database.file_small

private theorem stored : Stored database.service.NodeAt COUNTRY_BEGIN database.numbers 0 := by
  have size : database.numbers.size ≤ COUNTRY_BEGIN := by
    rw [numbers, size_map]
    exact database.few
  have leaves : ∀ entry ∈ database.numbers.entries,
      COUNTRY_BEGIN ≤ entry.2 ∧ entry.2 ≤ COUNTRY_BEGIN + countryCode.length := by
    intro entry member
    rw [numbers, entries_map, List.mem_map] at member
    rcases member with ⟨⟨bits, index⟩, -, same⟩
    subst same
    exact ⟨Nat.le_add_right _ _, Nat.add_le_add_left (Nat.le_of_lt index.isLt) _⟩
  have cached := database.service_storage
  have small := database.file_small
  have length := database.service_recordLength
  have countries : COUNTRY_BEGIN + countryCode.length < 256 ^ STANDARD_RECORD_LENGTH := by
    decide +kernel
  rw [← length] at countries
  rw [file, ← length] at cached small
  refine stored_of_cache cached (by rw [length]) ?_ (by simp) small size (Nat.le_add_right _ _)
    leaves countries ?_
  · rw [length]
    decide
  · decide +kernel

theorem seekCountry_file (database : CountryDatabase 32) (address : InetAddress) :
    ∃ index length, database.tree.follow address.longBits = some (index, length) ∧
      database.service.seekCountry (bytesToLong address) =
        .ok { value := (COUNTRY_BEGIN + index.val : Nat), netmask := some length } := by
  have deep : database.tree.height ≤ address.longBits.length := by
    rw [address.longBits_length]
    exact database.shallow
  obtain ⟨⟨index, length⟩, reached⟩ := Option.isSome_iff_exists.mp (follow_isSome deep)
  refine ⟨index, length, reached, ?_⟩
  have walked := seekCountry_of_stored database.service_segments database.stored address
  change _ = Except.ok (Seek.ofEntry 0 (database.numbers.follow address.longBits)) at walked
  rw [walked, numbers, follow_map, reached, Option.map_some, Seek.ofEntry, Nat.zero_add]

theorem getCountry_network (database : CountryDatabase 32) {address : InetAddress}
    {network : List Bool} {index : Fin countryCode.length}
    (member : (network, index) ∈ database.tree.entries) (begins : network <+: address.longBits) :
    database.service.getCountry (bytesToLong address) = .ok (countryAt index) := by
  obtain ⟨found, length, reached, sought⟩ := database.seekCountry_file address
  have here : database.tree.follow address.longBits = some (index, network.length) := by
    rw [follow_eq_some_iff, ← List.prefix_iff_eq_take.mp begins]
    exact ⟨begins.length_le, member⟩
  cases Option.some.inj (reached.symm.trans here)
  rw [getCountry, sought]
  exact countryOf_index index.isLt _

end CountryDatabase

end Packetpig
