/-
What the UDFs return for the addresses of a database that is installed where
they look for it.
-/

import Packetpig.GeoIp.Countries
import Packetpig.GeoIp.Locations

namespace Packetpig

open Text PrefixTree LookupService

namespace Udf

def Installed (files : Bytes → Option Bytes) (name : String) (file : Bytes) : Prop :=
  files (ascii ("data/" ++ name)) = some file ∨
    files (ascii ("data/" ++ name)) = none ∧ files (ascii name) = some file

theorem openDatabase_installed {files : Bytes → Option Bytes} {name : String} {file : Bytes}
    (installed : Installed files name file) :
    openDatabase files name = LookupService.new GEOIP_MEMORY_CACHE file := by
  unfold openDatabase
  rcases installed with found | ⟨missing, found⟩
  · rw [found]
  · rw [missing]
    dsimp only
    rw [found]

def oneFile (path : String) (file : Bytes) (name : Bytes) : Option Bytes :=
  if name = ascii path then some file else none

end Udf

namespace RecordDatabase

variable {ρ : Type} {encode : ρ → Bytes} {width : Nat} (database : RecordDatabase ρ encode width)

def networks : List (List Bool × Option ρ) := database.records.entries

theorem recordOf_network {network : List Bool} {record : Option ρ}
    (member : (network, record) ∈ database.networks) {bits : List Bool} (begins : network <+: bits) :
    database.recordOf bits = record := by
  have reached : database.records.follow bits = some (record, network.length) := by
    rw [follow_eq_some_iff, ← List.prefix_iff_eq_take.mp begins]
    exact ⟨begins.length_le, member⟩
  rw [recordOf, reached]
  rfl

theorem exists_network {bits : List Bool} (long : bits.length = width) :
    ∃ network record, (network, record) ∈ database.networks ∧ network <+: bits := by
  have deep : database.records.height ≤ bits.length := long ▸ database.shallow
  obtain ⟨⟨record, length⟩, reached⟩ := Option.isSome_iff_exists.mp (follow_isSome deep)
  obtain ⟨-, member⟩ := follow_eq_some_iff.mp reached
  exact ⟨_, record, member, List.take_prefix _ _⟩

end RecordDatabase

namespace Udf

variable {files : Bytes → Option Bytes} (getByName : Bytes → Option InetAddress)

/-- The name of an organisation for the addresses of its networks, and `null` for
other ones and for unknown hosts. -/
theorem ASNum.exec_organisation
    (database : RecordDatabase OrganisationName OrganisationName.encode 32)
    (installed : Installed files "GeoIPASNum.dat" database.file) :
    ∃ cl, ASNum.new files = .ok cl ∧
      (∀ ipaddr, getByName ipaddr = none → ASNum.exec getByName cl ipaddr = .ok none) ∧
      ∀ ipaddr address, getByName ipaddr = some address →
        (∃ network record, (network, record) ∈ database.networks ∧ network <+: address.longBits) ∧
        ∀ network record, (network, record) ∈ database.networks → network <+: address.longBits →
          ASNum.exec getByName cl ipaddr = .ok (record.map OrganisationName.text) := by
  refine ⟨database.service, ?_, ?_, ?_⟩
  · rw [ASNum.new, openDatabase_installed installed, database.new_file]
  · intro ipaddr unknown
    rw [ASNum.exec, getOrgByName, unknown]
  · intro ipaddr address resolved
    refine ⟨database.exists_network address.longBits_length, ?_⟩
    intro network record member begins
    rw [ASNum.exec, getOrgByName, resolved]
    dsimp only
    rw [database.getOrg_record, database.recordOf_network member begins]

def sampleOrganisations : RecordDatabase OrganisationName OrganisationName.encode 32 where
  type := 9
  zero := .leaf (some (ascii "AS1" ++ [0]))
  one := .leaf none
  edition := by decide
  few := by decide
  room := by decide +kernel
  small := by decide +kernel
  records := .node (.leaf (some { text := ascii "AS1", noZero := by decide, short := by decide }))
    (.leaf none)
  shallow := by decide
  tree_eq := rfl

def sampleAddress : InetAddress := { bytes := [10, 0, 0, 1], length_eq := .inl rfl }

theorem ASNum.organisation_sample :
    ∃ cl, ASNum.new (oneFile "GeoIPASNum.dat" sampleOrganisations.file) = .ok cl ∧
      ASNum.exec (fun _ => some sampleAddress) cl (ascii "10.0.0.1") = .ok (some (ascii "AS1")) := by
  have installed : Installed (oneFile "GeoIPASNum.dat" sampleOrganisations.file) "GeoIPASNum.dat"
      sampleOrganisations.file := .inr ⟨if_neg (by decide), if_pos rfl⟩
  obtain ⟨cl, opened, -, networks⟩ := ASNum.exec_organisation (fun _ => some sampleAddress)
    sampleOrganisations installed
  refine ⟨cl, opened, ?_⟩
  obtain ⟨-, answer⟩ := networks (ascii "10.0.0.1") sampleAddress rfl
  exact answer [false] _ List.mem_cons_self (by decide)

theorem getLocationByName_written {databaseType : Int}
    (database : RecordDatabase (LocationRecord databaseType) LocationRecord.encode 32)
    (same : editionOf database.type = databaseType) {ipaddr : Bytes} {address : InetAddress}
    (resolved : getByName ipaddr = some address) {network : List Bool}
    {record : Option (LocationRecord databaseType)} (member : (network, record) ∈ database.networks)
    (begins : network <+: address.longBits) :
    database.service.getLocationByName getByName ipaddr =
      .ok (record.map LocationRecord.location) := by
  rw [getLocationByName, resolved]
  dsimp only
  rw [database.getLocation_record same, database.recordOf_network member begins]

/-- The city of the network of an address, if it has one. -/
theorem City.exec_city {databaseType : Int}
    (database : RecordDatabase (LocationRecord databaseType) LocationRecord.encode 32)
    (same : editionOf database.type = databaseType)
    (installed : Installed files "GeoLiteCity.dat" database.file) :
    ∃ cl, City.new files = .ok cl ∧
      (∀ ipaddr rest, getByName ipaddr = none → City.exec getByName cl (ipaddr :: rest) = .ok none) ∧
      ∀ ipaddr rest address, getByName ipaddr = some address →
        (∃ network record, (network, record) ∈ database.networks ∧ network <+: address.longBits) ∧
        ∀ network record, (network, record) ∈ database.networks → network <+: address.longBits →
          City.exec getByName cl (ipaddr :: rest) =
            .ok (record.bind fun record => present record.city) := by
  refine ⟨database.service, ?_, ?_, ?_⟩
  · rw [City.new, openDatabase_installed installed, database.new_file]
  · intro ipaddr rest unknown
    rw [City.exec, getLocationByName, unknown]
    rfl
  · intro ipaddr rest address resolved
    refine ⟨database.exists_network address.longBits_length, ?_⟩
    intro network record member begins
    rw [City.exec, getLocationByName_written getByName database same resolved member begins]
    cases record with
    | none => rfl
    | some record => rfl

def sampleLocation : LocationRecord DatabaseInfo.CITY_EDITION_REV1 where
  index := 16
  region := ascii "07"
  city := ascii "Melbourne"
  postalCode := []
  latitude := 1430000
  longitude := 3250000
  metroarea_combo := 0
  known := by decide +kernel
  noZeros := by decide
  degrees := by decide
  metro := by decide
  short := by decide +kernel

def sampleLocations :
    RecordDatabase (LocationRecord DatabaseInfo.CITY_EDITION_REV1) LocationRecord.encode 32 where
  type := 2
  zero := .leaf (some sampleLocation.encode)
  one := .leaf none
  edition := by decide
  few := by decide
  room := by decide +kernel
  small := by decide +kernel
  records := .node (.leaf (some sampleLocation)) (.leaf none)
  shallow := by decide
  tree_eq := rfl

theorem City.city_sample :
    ∃ cl, City.new (oneFile "data/GeoLiteCity.dat" sampleLocations.file) = .ok cl ∧
      City.exec (fun _ => some sampleAddress) cl [ascii "10.0.0.1"] =
        .ok (some (ascii "Melbourne")) := by
  have installed : Installed (oneFile "data/GeoLiteCity.dat" sampleLocations.file)
      "GeoLiteCity.dat" sampleLocations.file := .inl (if_pos (by decide))
  obtain ⟨cl, opened, -, networks⟩ := City.exec_city (fun _ => some sampleAddress)
    sampleLocations (by decide) installed
  refine ⟨cl, opened, ?_⟩
  obtain ⟨-, answer⟩ := networks (ascii "10.0.0.1") [] sampleAddress rfl
  exact answer [false] _ List.mem_cons_self (by decide)

def position {databaseType : Int}
    (database : RecordDatabase (LocationRecord databaseType) LocationRecord.encode 32)
    (ipaddr : Bytes) : Option (Nat × Nat) :=
  (getByName ipaddr).bind fun address =>
    (database.recordOf address.longBits).map fun record => (record.latitude, record.longitude)

def positionText (floatText : Rat → Bytes) (place : Nat × Nat) : Bytes :=
  floatText (coordinate place.1) ++ ascii " " ++ floatText (coordinate place.2)

theorem LatLon.exec_position {databaseType : Int}
    (database : RecordDatabase (LocationRecord databaseType) LocationRecord.encode 32)
    (same : editionOf database.type = databaseType) (floatText : Rat → Bytes) (ipaddr : Bytes) :
    LatLon.exec getByName database.service floatText [ipaddr] =
      .ok ((position getByName database ipaddr).map (positionText floatText)) := by
  rw [LatLon.exec, getLocationByName, position]
  cases getByName ipaddr with
  | none => rfl
  | some address =>
      dsimp only
      rw [database.getLocation_record same, Option.bind_some]
      cases database.recordOf address.longBits with
      | none => rfl
      | some record => rfl

/-- The texts of different `float` values differ and have no space in them. -/
structure FloatTexts (floatText : Rat → Bytes) : Prop where
  distinct : ∀ sum sum', floatText (coordinate sum) = floatText (coordinate sum') →
    coordinate sum = coordinate sum'
  noSpace : ∀ sum, 32 ∉ floatText (coordinate sum)

theorem positionText_injective {floatText : Rat → Bytes} (texts : FloatTexts floatText)
    {place place' : Nat × Nat} (within : place.1 ≤ fullTurn ∧ place.2 ≤ fullTurn)
    (within' : place'.1 ≤ fullTurn ∧ place'.2 ≤ fullTurn)
    (same : positionText floatText place = positionText floatText place') : place = place' := by
  unfold positionText at same
  rw [List.append_assoc, List.append_assoc] at same
  obtain ⟨first, second⟩ := split_at_first (texts.noSpace _) (texts.noSpace _) same
  exact Prod.ext (coordinate_injective within.1 within'.1 (texts.distinct _ _ first))
    (coordinate_injective within.2 within'.2 (texts.distinct _ _ second))

def OnEarth {databaseType : Int}
    (database : RecordDatabase (LocationRecord databaseType) LocationRecord.encode 32) : Prop :=
  ∀ network record, (network, some record) ∈ database.networks →
    record.latitude ≤ fullTurn ∧ record.longitude ≤ fullTurn

theorem position_within {databaseType : Int}
    {database : RecordDatabase (LocationRecord databaseType) LocationRecord.encode 32}
    (onEarth : OnEarth database) {ipaddr : Bytes} {place : Nat × Nat}
    (known : position getByName database ipaddr = some place) :
    place.1 ≤ fullTurn ∧ place.2 ≤ fullTurn := by
  rw [position, Option.bind_eq_some_iff] at known
  obtain ⟨address, -, known⟩ := known
  rw [Option.map_eq_some_iff] at known
  obtain ⟨record, isRecord, same⟩ := known
  obtain ⟨network, found, member, begins⟩ := database.exists_network address.longBits_length
  rw [database.recordOf_network member begins] at isRecord
  subst isRecord same
  exact onEarth network record member

theorem positionText_eq_iff {databaseType : Int}
    {database : RecordDatabase (LocationRecord databaseType) LocationRecord.encode 32}
    (onEarth : OnEarth database) {floatText : Rat → Bytes} (texts : FloatTexts floatText)
    (ipaddr ipaddr' : Bytes) :
    (position getByName database ipaddr).map (positionText floatText) =
        (position getByName database ipaddr').map (positionText floatText) ↔
      position getByName database ipaddr = position getByName database ipaddr' := by
  constructor
  · intro sameText
    cases here : position getByName database ipaddr with
    | none =>
        rw [here, Option.map_none, eq_comm, Option.map_eq_none_iff] at sameText
        exact sameText.symm
    | some place =>
        rw [here, Option.map_some, eq_comm, Option.map_eq_some_iff] at sameText
        obtain ⟨place', there, sameText⟩ := sameText
        rw [there, positionText_injective texts (position_within getByName onEarth here)
          (position_within getByName onEarth there) sameText.symm]
  · intro samePlace
    rw [samePlace]

/-- With a text for each `float` two hosts have the same answer when their
networks have the same position, and only then. -/
theorem LatLon.exec_eq_iff_position {databaseType : Int}
    (database : RecordDatabase (LocationRecord databaseType) LocationRecord.encode 32)
    (same : editionOf database.type = databaseType)
    (installed : Installed files "GeoLiteCity.dat" database.file) (onEarth : OnEarth database)
    {floatText : Rat → Bytes} (texts : FloatTexts floatText) :
    ∃ cl, LatLon.new files = .ok cl ∧
      ∀ ipaddr ipaddr', LatLon.exec getByName cl floatText [ipaddr] =
          LatLon.exec getByName cl floatText [ipaddr'] ↔
        position getByName database ipaddr = position getByName database ipaddr' := by
  refine ⟨database.service, ?_, ?_⟩
  · rw [LatLon.new, openDatabase_installed installed, database.new_file]
  · intro ipaddr ipaddr'
    rw [LatLon.exec_position getByName database same, LatLon.exec_position getByName database same,
      Except.ok.injEq]
    exact positionText_eq_iff getByName onEarth texts ipaddr ipaddr'

/-- Whole numbers as `Float.toString` writes them, and fractions for the others. -/
def fractionText (value : Rat) : Bytes :=
  integer value.num ++ if value.den = 1 then ascii ".0" else ascii "/" ++ decimal value.den

private theorem fractionText_injective {value other : Rat}
    (same : fractionText value = fractionText other) : value = other := by
  have noSlash : ∀ number : Int, 47 ∉ integer number := notMem_integer (by decide) (by decide)
  have noPoint : ∀ number : Rat, number.den ≠ 1 → 46 ∉ fractionText number := by
    intro number fraction
    rw [fractionText, if_neg fraction, List.mem_append, List.mem_append, not_or, not_or]
    exact ⟨notMem_integer (by decide) (by decide) _, by decide, notMem_decimal (by decide) _⟩
  have point : ∀ number : Rat, number.den = 1 → 46 ∈ fractionText number := by
    intro number whole
    rw [fractionText, if_pos whole]
    exact List.mem_append_right _ (by decide)
  by_cases whole : value.den = 1
  · by_cases whole' : other.den = 1
    · rw [fractionText, fractionText, if_pos whole, if_pos whole'] at same
      exact Rat.ext (integer_injective (List.append_cancel_right same)) (whole.trans whole'.symm)
    · exact absurd (same ▸ point value whole) (noPoint other whole')
  · by_cases whole' : other.den = 1
    · exact absurd (same.symm ▸ point other whole') (noPoint value whole)
    · rw [fractionText, fractionText, if_neg whole, if_neg whole'] at same
      obtain ⟨nums, dens⟩ := split_at_first (noSlash _) (noSlash _) same
      exact Rat.ext (integer_injective nums) (decimal_injective dens)

theorem fractionText_texts : FloatTexts fractionText where
  distinct := fun _ _ => fractionText_injective
  noSpace := by
    intro sum
    rw [fractionText, List.mem_append, not_or]
    refine ⟨notMem_integer (by decide) (by decide) _, ?_⟩
    split
    · decide
    · rw [List.mem_append, not_or]
      exact ⟨by decide, notMem_decimal (by decide) _⟩

theorem sampleLocations_onEarth : OnEarth sampleLocations := by
  intro network record member
  rcases List.mem_cons.mp member with same | member
  · rw [Prod.mk.injEq, Option.some.injEq] at same
    rw [same.2]
    decide
  · cases List.mem_singleton.mp member

theorem LatLon.position_sample :
    ∃ cl, LatLon.new (oneFile "data/GeoLiteCity.dat" sampleLocations.file) = .ok cl ∧
      LatLon.exec (fun _ => some sampleAddress) cl fractionText [ascii "10.0.0.1"] =
        LatLon.exec (fun _ => some sampleAddress) cl fractionText [ascii "10.0.0.2"] := by
  have installed : Installed (oneFile "data/GeoLiteCity.dat" sampleLocations.file)
      "GeoLiteCity.dat" sampleLocations.file := .inl (if_pos (by decide))
  obtain ⟨cl, opened, apart⟩ := LatLon.exec_eq_iff_position (fun _ => some sampleAddress) sampleLocations
    (by decide) installed sampleLocations_onEarth fractionText_texts
  refine ⟨cl, opened, (apart _ _).mpr ?_⟩
  rw [position, position]

/-- The code of the country of the network of an address, which no other country
has. -/
theorem Country.exec_code (database : CountryDatabase 32)
    (installed : Installed files "GeoIP.dat" database.file) :
    ∃ cl, Country.new files = .ok cl ∧
      (∀ ipaddr, getByName ipaddr = none → Country.exec getByName cl ipaddr = .ok (ascii "--")) ∧
      ∀ ipaddr address, getByName ipaddr = some address →
        (∃ network index, (network, index) ∈ database.tree.entries ∧
          network <+: address.longBits) ∧
        ∀ network index, (network, index) ∈ database.tree.entries → network <+: address.longBits →
          Country.exec getByName cl ipaddr = .ok (countryAt index).code ∧
          ∀ other : Fin countryCode.length,
            (countryAt other).code = (countryAt index).code → other = index := by
  refine ⟨database.service, ?_, ?_, ?_⟩
  · rw [Country.new, openDatabase_installed installed, database.new_file]
  · intro ipaddr unknown
    rw [Country.exec, getCountryByName, unknown]
    rfl
  · intro ipaddr address resolved
    constructor
    · obtain ⟨index, length, reached, -⟩ := database.seekCountry_file address
      obtain ⟨-, member⟩ := follow_eq_some_iff.mp reached
      exact ⟨_, index, member, List.take_prefix _ _⟩
    · intro network index member begins
      constructor
      · rw [Country.exec, getCountryByName, resolved]
        dsimp only
        rw [database.getCountry_network member begins]
        rfl
      · intro other same
        exact Fin.ext (code_injective other.isLt index.isLt same)

def sampleCountries : CountryDatabase 32 where
  type := 1
  zero := .leaf ⟨16, by decide +kernel⟩
  one := .leaf ⟨0, by decide +kernel⟩
  edition := by decide
  few := by decide
  shallow := by decide

theorem Country.code_sample :
    ∃ cl, Country.new (oneFile "GeoIP.dat" sampleCountries.file) = .ok cl ∧
      Country.exec (fun _ => some sampleAddress) cl (ascii "10.0.0.1") = .ok (ascii "AU") := by
  have installed : Installed (oneFile "GeoIP.dat" sampleCountries.file) "GeoIP.dat"
      sampleCountries.file := .inr ⟨if_neg (by decide), if_pos rfl⟩
  obtain ⟨cl, opened, -, networks⟩ := Country.exec_code (fun _ => some sampleAddress)
    sampleCountries installed
  refine ⟨cl, opened, ?_⟩
  obtain ⟨-, answer⟩ := networks (ascii "10.0.0.1") sampleAddress rfl
  exact (answer [false] _ List.mem_cons_self (by decide)).1

end Udf

end Packetpig
