/-
Databases of locations: the fields of a record are read back as they are written,
and the coordinates that are read tell all positions apart.
-/

import Packetpig.GeoIp.Countries

namespace Packetpig

open Text LookupService

namespace LookupService

theorem threeBytes_append {number : Nat} (small : number < 256 ^ 3) (rest : Bytes) :
    threeBytes (littleEndianBytes 3 number ++ rest) = .ok (number, rest) := by
  have width := littleEndianBytes_length 3 number
  have value := littleEndian_littleEndianBytes 3 small
  generalize littleEndianBytes 3 number = bytes at width value
  match bytes, width with
  | [b0, b1, b2], _ =>
      change Except.ok (littleEndian [b0, b1, b2], rest) = _
      rw [value]

end LookupService

/-- What is written for a location; the coordinates are in ten thousandths of a
degree, and the last number is written for some locations only. -/
structure LocationFields where
  index : Byte
  region : Bytes
  city : Bytes
  postalCode : Bytes
  latitude : Nat
  longitude : Nat
  metroarea_combo : Nat

namespace LocationFields

variable (databaseType : Int) (fields : LocationFields)

def country : Country := countryAt fields.index.toNat

def hasMetro : Bool :=
  databaseType = DatabaseInfo.CITY_EDITION_REV1 ∧ fields.country.code = ascii "US"

def encode : Bytes :=
  fields.index :: fields.region ++ 0 :: fields.city ++ 0 :: fields.postalCode ++
    0 :: littleEndianBytes 3 fields.latitude ++ littleEndianBytes 3 fields.longitude ++
      if fields.hasMetro databaseType then littleEndianBytes 3 fields.metroarea_combo else []

def location : Location :=
  { countryCode := some fields.country.code
    countryName := some fields.country.name
    region := present fields.region
    city := present fields.city
    postalCode := present fields.postalCode
    latitude := coordinate fields.latitude
    longitude := coordinate fields.longitude
    dma_code := if fields.hasMetro databaseType then fields.metroarea_combo / 1000 else 0
    area_code := if fields.hasMetro databaseType then fields.metroarea_combo % 1000 else 0
    metro_code := if fields.hasMetro databaseType then fields.metroarea_combo / 1000 else 0 }

end LocationFields

/-- Fields that their places in a record, and a record that its buffer, has room
for. -/
structure LocationRecord (databaseType : Int) extends LocationFields where
  known : index.toNat < countryCode.length
  noZeros : 0 ∉ region ∧ 0 ∉ city ∧ 0 ∉ postalCode
  degrees : latitude < 256 ^ 3 ∧ longitude < 256 ^ 3
  metro : metroarea_combo < 256 ^ 3
  short : (toLocationFields.encode databaseType).length ≤ FULL_RECORD_LENGTH

namespace LocationRecord

variable {databaseType : Int} (record : LocationRecord databaseType)

def encode : Bytes := record.toLocationFields.encode databaseType

def location : Location := record.toLocationFields.location databaseType

theorem parseLocation_encode (rest : Bytes) :
    parseLocation databaseType (record.encode ++ rest) = .ok record.location := by
  obtain ⟨inRegion, inCity, inPostalCode⟩ := record.noZeros
  have metro := threeBytes_append record.metro rest
  unfold encode LocationFields.encode
  simp only [List.append_assoc, List.cons_append]
  unfold parseLocation
  simp only [bind, Except.bind, country_known record.known, zeroTerminated_append inRegion,
    zeroTerminated_append inCity, zeroTerminated_append inPostalCode,
    threeBytes_append record.degrees.1, threeBytes_append record.degrees.2]
  unfold location LocationFields.location LocationFields.hasMetro LocationFields.country
  by_cases withMetro : databaseType = DatabaseInfo.CITY_EDITION_REV1 ∧
      (countryAt record.index.toNat).code = ascii "US"
  · simp only [withMetro, and_self, decide_true, if_true, metro]
    rfl
  · simp only [withMetro, decide_false, Bool.false_eq_true, if_false]
    rfl

end LocationRecord

namespace Database

variable (database : Database)

private theorem locationOf_points {databaseType : Int}
    (same : editionOf database.type = databaseType)
    {record : Option (LocationRecord databaseType)} {answer : Seek}
    (points : database.Points (record.map LocationRecord.encode) answer.value) :
    database.service.locationOf answer = .ok (record.map LocationRecord.location) := by
  have copies : ∀ pointer, database.service.readLocation pointer =
      some <$> copyData database.file pointer FULL_RECORD_LENGTH := by
    intro pointer
    unfold readLocation readWhole
    rw [database.service_storage]
  unfold locationOf
  simp only [LookupService.segments, database.service_segments, bind, Except.bind]
  cases record with
  | none =>
      rcases answer with ⟨value, netmask⟩
      cases points
      exact if_pos rfl
  | some record =>
      obtain ⟨found, rest, copied, -⟩ := database.copyData_points points FULL_RECORD_LENGTH
      rw [take_front rest (show record.encode.length ≤ FULL_RECORD_LENGTH from record.short)]
        at copied
      rw [if_neg found, copies, copied, database.service_databaseType, same]
      simp only [Functor.map, Except.map, record.parseLocation_encode]
      rfl

end Database

namespace RecordDatabase

theorem getLocation_record {databaseType : Int}
    (database : RecordDatabase (LocationRecord databaseType) LocationRecord.encode 32)
    (same : editionOf database.type = databaseType) (address : InetAddress) :
    database.service.getLocation (bytesToLong address) =
      .ok ((database.recordOf address.longBits).map LocationRecord.location) := by
  obtain ⟨answer, found, points⟩ := database.seekCountry_record address
  rw [getLocation, found]
  exact database.locationOf_points same points

theorem getLocationV6_record {databaseType : Int}
    (database : RecordDatabase (LocationRecord databaseType) LocationRecord.encode 128)
    (same : editionOf database.type = databaseType) {address : InetAddress}
    (long : address.bytes.length = 16) :
    database.service.getLocationV6 address =
      .ok ((database.recordOf address.bits).map LocationRecord.location) := by
  obtain ⟨answer, found, points⟩ := database.seekCountryV6_record long
  rw [getLocationV6, found]
  exact database.locationOf_points same points

end RecordDatabase

def fullTurn : Nat := 3600000

theorem abs_coordinate_sub_lt {sum : Nat} (within : sum ≤ fullTurn) :
    |coordinate sum - (sum / 10000 - 180)| < 1 / 40000 := by
  have small : (sum : Rat) ≤ 3600000 := by exact_mod_cast within
  have nonnegative : (0 : Rat) ≤ sum := Nat.cast_nonneg sum
  have first : |Rounding.round 24 ((sum : Rat) / 10000) - sum / 10000| ≤
      2 ^ ((9 : Int) - (24 : Nat)) / 2 :=
    Rounding.abs_round_sub_le_of_lt 24 (by
      rw [abs_lt]
      constructor
      · norm_num
        linarith
      · norm_num
        linarith)
  rw [abs_le] at first
  norm_num at first
  have second : |coordinate sum - (Rounding.round 24 ((sum : Rat) / 10000) - 180)| ≤
      2 ^ ((8 : Int) - (24 : Nat)) / 2 :=
    Rounding.abs_round_sub_le_of_lt 24 (by
      rw [abs_lt]
      constructor
      · norm_num
        linarith
      · norm_num
        linarith)
  rw [abs_le] at second
  norm_num at second
  rw [abs_lt]
  constructor
  · linarith
  · linarith

theorem coordinate_lt_iff {sum sum' : Nat} (within : sum ≤ fullTurn) (within' : sum' ≤ fullTurn) :
    coordinate sum < coordinate sum' ↔ sum < sum' := by
  have near := abs_lt.mp (abs_coordinate_sub_lt within)
  have near' := abs_lt.mp (abs_coordinate_sub_lt within')
  have increasing : ∀ {low high : Nat}, low < high → (low : Rat) / 10000 + 1 / 10000 ≤ high / 10000 := by
    intro low high less
    have step : (low : Rat) + 1 ≤ high := by exact_mod_cast less
    linarith
  constructor
  · intro less
    by_contra notLess
    rcases Nat.lt_or_eq_of_le (Nat.le_of_not_lt notLess) with above | same
    · have step := increasing above
      linarith
    · rw [same] at less
      exact absurd less (lt_irrefl _)
  · intro less
    have step := increasing less
    linarith

theorem coordinate_injective {sum sum' : Nat} (within : sum ≤ fullTurn) (within' : sum' ≤ fullTurn)
    (same : coordinate sum = coordinate sum') : sum = sum' := by
  have notBelow := mt (coordinate_lt_iff within within').mpr (not_lt_of_ge (le_of_eq same.symm))
  have notAbove := mt (coordinate_lt_iff within' within).mpr (not_lt_of_ge (le_of_eq same))
  omega

end Packetpig
