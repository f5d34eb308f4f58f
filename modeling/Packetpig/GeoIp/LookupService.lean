/-
LookupService of com.maxmind.geoip: opening a database file, the way from an
address to a number in the binary tree of the file, and the countries,
organisations and locations that the numbers stand for.

The caches are those of the constructor's options; GEOIP_CHECK_CACHE, closing a
service and the remote service are left out. A file is the list of its bytes.
-/

import Packetpig.Exceptions
import Packetpig.Library.Radix
import Packetpig.Library.Rounding

namespace Packetpig

open Text

/-- The value of an `int` after an operation that overflows silently. -/
def javaInt (value : Int) : Int := value.bmod (2 ^ 32)

/-- One more than the largest `int`. -/
def intBound : Nat := 2 ^ 31

abbrev Long := BitVec 64

namespace DatabaseInfo

def COUNTRY_EDITION : Int := 1
def REGION_EDITION_REV0 : Int := 7
def REGION_EDITION_REV1 : Int := 3
def CITY_EDITION_REV0 : Int := 6
def CITY_EDITION_REV1 : Int := 2
def ORG_EDITION : Int := 5
def ISP_EDITION : Int := 4
def PROXY_EDITION : Int := 8
def ASNUM_EDITION : Int := 9
def NETSPEED_EDITION : Int := 10
def DOMAIN_EDITION : Int := 11
def COUNTRY_EDITION_V6 : Int := 12
def ASNUM_EDITION_V6 : Int := 21
def ISP_EDITION_V6 : Int := 22
def ORG_EDITION_V6 : Int := 23
def DOMAIN_EDITION_V6 : Int := 24
def CITY_EDITION_REV1_V6 : Int := 30
def CITY_EDITION_REV0_V6 : Int := 31
def NETSPEED_EDITION_REV1 : Int := 32
def NETSPEED_EDITION_REV1_V6 : Int := 33

end DatabaseInfo

/-- `getAddress()` of an address has four or sixteen bytes. -/
structure InetAddress where
  bytes : Bytes
  length_eq : bytes.length = 4 ∨ bytes.length = 16

structure Country where
  code : Bytes
  name : Bytes
deriving DecidableEq, Repr

/-- Texts are the bytes that they are made of; `float` values are exact. -/
structure Location where
  countryCode : Option Bytes
  countryName : Option Bytes
  region : Option Bytes
  city : Option Bytes
  postalCode : Option Bytes
  latitude : Rat
  longitude : Rat
  dma_code : Nat
  area_code : Nat
  metro_code : Nat
deriving DecidableEq, Repr

def Location.empty : Location :=
  { countryCode := none, countryName := none, region := none, city := none, postalCode := none
    latitude := 0, longitude := 0, dma_code := 0, area_code := 0, metro_code := 0 }

/-- `seek(position)` and `readFully` of so many bytes. -/
def RandomAccessFile.readFully (file : Bytes) (position : Int) (count : Nat) :
    Except JavaException Bytes :=
  if position < 0 then .error .ioException
  else if file.length < position.toNat + count then .error .ioException
  else .ok ((file.drop position.toNat).take count)

/-- What `readFully` leaves in a buffer when its exception is caught: the bytes
up to the end of the file, and behind them what was there before. -/
def RandomAccessFile.readInto (file : Bytes) (position : Int) (buf : Bytes) : Bytes :=
  if position < 0 then buf
  else
    let read := (file.drop position.toNat).take buf.length
    read ++ buf.drop read.length

def arrayElements (array : Bytes) (start : Int) (count : Nat) : Except JavaException Bytes :=
  if start < 0 then .error .arrayIndexOutOfBoundsException
  else if array.length < start.toNat + count then .error .arrayIndexOutOfBoundsException
  else .ok ((array.drop start.toNat).take count)

namespace LookupService

def COUNTRY_BEGIN : Nat := 16776960
def STATE_BEGIN_REV0 : Nat := 16700000
def STATE_BEGIN_REV1 : Nat := 16000000
def STRUCTURE_INFO_MAX_SIZE : Nat := 20
def SEGMENT_RECORD_LENGTH : Nat := 3
def STANDARD_RECORD_LENGTH : Nat := 3
def ORG_RECORD_LENGTH : Nat := 4
def MAX_RECORD_LENGTH : Nat := 4
def MAX_ORG_RECORD_LENGTH : Nat := 300
def FULL_RECORD_LENGTH : Nat := 60

def UNKNOWN_COUNTRY : Country := { code := ascii "--", name := ascii "N/A" }

def countryCode : List String :=
  ["--", "AP", "EU", "AD", "AE", "AF", "AG", "AI", "AL", "AM", "AN", "AO", "AQ", "AR", "AS",
    "AT", "AU", "AW", "AZ", "BA", "BB", "BD", "BE", "BF", "BG", "BH", "BI", "BJ", "BM", "BN",
    "BO", "BR", "BS", "BT", "BV", "BW", "BY", "BZ", "CA", "CC", "CD", "CF", "CG", "CH", "CI",
    "CK", "CL", "CM", "CN", "CO", "CR", "CU", "CV", "CX", "CY", "CZ", "DE", "DJ", "DK", "DM",
    "DO", "DZ", "EC", "EE", "EG", "EH", "ER", "ES", "ET", "FI", "FJ", "FK", "FM", "FO", "FR",
    "FX", "GA", "GB", "GD", "GE", "GF", "GH", "GI", "GL", "GM", "GN", "GP", "GQ", "GR", "GS",
    "GT", "GU", "GW", "GY", "HK", "HM", "HN", "HR", "HT", "HU", "ID", "IE", "IL", "IN", "IO",
    "IQ", "IR", "IS", "IT", "JM", "JO", "JP", "KE", "KG", "KH", "KI", "KM", "KN", "KP", "KR",
    "KW", "KY", "KZ", "LA", "LB", "LC", "LI", "LK", "LR", "LS", "LT", "LU", "LV", "LY", "MA",
    "MC", "MD", "MG", "MH", "MK", "ML", "MM", "MN", "MO", "MP", "MQ", "MR", "MS", "MT", "MU",
    "MV", "MW", "MX", "MY", "MZ", "NA", "NC", "NE", "NF", "NG", "NI", "NL", "NO", "NP", "NR",
    "NU", "NZ", "OM", "PA", "PE", "PF", "PG", "PH", "PK", "PL", "PM", "PN", "PR", "PS", "PT",
    "PW", "PY", "QA", "RE", "RO", "RU", "RW", "SA", "SB", "SC", "SD", "SE", "SG", "SH", "SI",
    "SJ", "SK", "SL", "SM", "SN", "SO", "SR", "ST", "SV", "SY", "SZ", "TC", "TD", "TF", "TG",
    "TH", "TJ", "TK", "TM", "TN", "TO", "TL", "TR", "TT", "TV", "TW", "TZ", "UA", "UG", "UM",
    "US", "UY", "UZ", "VA", "VC", "VE", "VG", "VI", "VN", "VU", "WF", "WS", "YE", "YT", "RS",
    "ZA", "ZM", "ME", "ZW", "A1", "A2", "O1", "AX", "GG", "IM", "JE", "BL", "MF"]

def countryName : List String :=
  ["N/A", "Asia/Pacific Region", "Europe", "Andorra", "United Arab Emirates", "Afghanistan",
    "Antigua and Barbuda", "Anguilla", "Albania", "Armenia", "Netherlands Antilles", "Angola",
    "Antarctica", "Argentina", "American Samoa", "Austria", "Australia", "Aruba", "Azerbaijan",
    "Bosnia and Herzegovina", "Barbados", "Bangladesh", "Belgium", "Burkina Faso", "Bulgaria",
    "Bahrain", "Burundi", "Benin", "Bermuda", "Brunei Darussalam", "Bolivia", "Brazil",
    "Bahamas", "Bhutan", "Bouvet Island", "Botswana", "Belarus", "Belize", "Canada",
    "Cocos (Keeling) Islands", "Congo, The Democratic Republic of the",
    "Central African Republic", "Congo", "Switzerland", "Cote D'Ivoire", "Cook Islands", "Chile",
    "Cameroon", "China", "Colombia", "Costa Rica", "Cuba", "Cape Verde", "Christmas Island",
    "Cyprus", "Czech Republic", "Germany", "Djibouti", "Denmark", "Dominica",
    "Dominican Republic", "Algeria", "Ecuador", "Estonia", "Egypt", "Western Sahara", "Eritrea",
    "Spain", "Ethiopia", "Finland", "Fiji", "Falkland Islands (Malvinas)",
    "Micronesia, Federated States of", "Faroe Islands", "France", "France, Metropolitan",
    "Gabon", "United Kingdom", "Grenada", "Georgia", "French Guiana", "Ghana", "Gibraltar",
    "Greenland", "Gambia", "Guinea", "Guadeloupe", "Equatorial Guinea", "Greece",
    "South Georgia and the South Sandwich Islands", "Guatemala", "Guam", "Guinea-Bissau",
    "Guyana", "Hong Kong", "Heard Island and McDonald Islands", "Honduras", "Croatia", "Haiti",
    "Hungary", "Indonesia", "Ireland", "Israel", "India", "British Indian Ocean Territory",
    "Iraq", "Iran, Islamic Republic of", "Iceland", "Italy", "Jamaica", "Jordan", "Japan",
    "Kenya", "Kyrgyzstan", "Cambodia", "Kiribati", "Comoros", "Saint Kitts and Nevis",
    "Korea, Democratic People's Republic of", "Korea, Republic of", "Kuwait", "Cayman Islands",
    "Kazakhstan", "Lao People's Democratic Republic", "Lebanon", "Saint Lucia", "Liechtenstein",
    "Sri Lanka", "Liberia", "Lesotho", "Lithuania", "Luxembourg", "Latvia",
    "Libyan Arab Jamahiriya", "Morocco", "Monaco", "Moldova, Republic of", "Madagascar",
    "Marshall Islands", "Macedonia", "Mali", "Myanmar", "Mongolia", "Macau",
    "Northern Mariana Islands", "Martinique", "Mauritania", "Montserrat", "Malta", "Mauritius",
    "Maldives", "Malawi", "Mexico", "Malaysia", "Mozambique", "Namibia", "New Caledonia",
    "Niger", "Norfolk Island", "Nigeria", "Nicaragua", "Netherlands", "Norway", "Nepal", "Nauru",
    "Niue", "New Zealand", "Oman", "Panama", "Peru", "French Polynesia", "Papua New Guinea",
    "Philippines", "Pakistan", "Poland", "Saint Pierre and Miquelon", "Pitcairn Islands",
    "Puerto Rico", "Palestinian Territory", "Portugal", "Palau", "Paraguay", "Qatar", "Reunion",
    "Romania", "Russian Federation", "Rwanda", "Saudi Arabia", "Solomon Islands", "Seychelles",
    "Sudan", "Sweden", "Singapore", "Saint Helena", "Slovenia", "Svalbard and Jan Mayen",
    "Slovakia", "Sierra Leone", "San Marino", "Senegal", "Somalia", "Suriname",
    "Sao Tome and Principe", "El Salvador", "Syrian Arab Republic", "Swaziland",
    "Turks and Caicos Islands", "Chad", "French Southern Territories", "Togo", "Thailand",
    "Tajikistan", "Tokelau", "Turkmenistan", "Tunisia", "Tonga", "Timor-Leste", "Turkey",
    "Trinidad and Tobago", "Tuvalu", "Taiwan", "Tanzania, United Republic of", "Ukraine",
    "Uganda", "United States Minor Outlying Islands", "United States", "Uruguay", "Uzbekistan",
    "Holy See (Vatican City State)", "Saint Vincent and the Grenadines", "Venezuela",
    "Virgin Islands, British", "Virgin Islands, U.S.", "Vietnam", "Vanuatu", "Wallis and Futuna",
    "Samoa", "Yemen", "Mayotte", "Serbia", "South Africa", "Zambia", "Montenegro", "Zimbabwe",
    "Anonymous Proxy", "Satellite Provider", "Other", "Aland Islands", "Guernsey", "Isle of Man",
    "Jersey", "Saint Barthelemy", "Saint Martin"]

end LookupService

/-! ### Opening a database -/

/-- `GEOIP_MEMORY_CACHE` and `GEOIP_INDEX_CACHE` among the options. -/
structure LookupOptions where
  memoryCache : Bool
  indexCache : Bool
deriving DecidableEq, Repr

def GEOIP_STANDARD : LookupOptions := { memoryCache := false, indexCache := false }
def GEOIP_MEMORY_CACHE : LookupOptions := { memoryCache := true, indexCache := false }
def GEOIP_INDEX_CACHE : LookupOptions := { memoryCache := false, indexCache := true }

/-- Where an open service reads the tree from; its data are in the memory cache
or in the file. -/
inductive LookupStorage where
  | standard (file : Bytes)
  | memoryCache (dbbuffer : Bytes)
  | indexCache (file index_cache : Bytes)
deriving DecidableEq, Repr

/-- `databaseSegments` stays `null` for a type that is not known. -/
structure DatabaseStructure where
  databaseType : Int
  databaseSegments : Option Nat
  recordLength : Nat
deriving DecidableEq, Repr

structure LookupService extends DatabaseStructure where
  storage : LookupStorage
deriving DecidableEq, Repr

namespace LookupService

open RandomAccessFile

/-- The loop of `init`: the position behind three bytes 255, if they are among
the last ones. The position in the file moves back once more at its end. -/
def findStructure (file : Bytes) : Nat → Int → Except JavaException (Option Nat)
  | turns, position =>
      if position < 0 then .error .ioException
      else
        match turns with
        | 0 => .ok none
        | turns + 1 => do
            let delim ← readFully file position 3
            if delim = [255, 255, 255] then return some (position.toNat + 3)
            else findStructure file turns (position - 1)

def segmentEditions : List Int :=
  [DatabaseInfo.CITY_EDITION_REV0, DatabaseInfo.CITY_EDITION_REV1, DatabaseInfo.ORG_EDITION,
    DatabaseInfo.ORG_EDITION_V6, DatabaseInfo.ISP_EDITION, DatabaseInfo.ISP_EDITION_V6,
    DatabaseInfo.DOMAIN_EDITION, DatabaseInfo.DOMAIN_EDITION_V6, DatabaseInfo.ASNUM_EDITION,
    DatabaseInfo.ASNUM_EDITION_V6, DatabaseInfo.NETSPEED_EDITION_REV1,
    DatabaseInfo.NETSPEED_EDITION_REV1_V6, DatabaseInfo.CITY_EDITION_REV0_V6,
    DatabaseInfo.CITY_EDITION_REV1_V6]

def standardEditions : List Int :=
  [DatabaseInfo.CITY_EDITION_REV0, DatabaseInfo.CITY_EDITION_REV1, DatabaseInfo.ASNUM_EDITION_V6,
    DatabaseInfo.NETSPEED_EDITION_REV1, DatabaseInfo.NETSPEED_EDITION_REV1_V6,
    DatabaseInfo.CITY_EDITION_REV0_V6, DatabaseInfo.CITY_EDITION_REV1_V6,
    DatabaseInfo.ASNUM_EDITION]

def countryEditions : List Int :=
  [DatabaseInfo.COUNTRY_EDITION, DatabaseInfo.COUNTRY_EDITION_V6, DatabaseInfo.PROXY_EDITION,
    DatabaseInfo.NETSPEED_EDITION]

def littleEndian (bytes : Bytes) : Nat := Radix.value bytes.reverse

def readType (file : Bytes) (position : Nat) : Except JavaException Int := do
  let byte ← readFully file position 1
  let databaseType := (littleEndian byte : Int).bmod (2 ^ 8)
  return if databaseType ≥ 106 then databaseType - 105 else databaseType

def readSegments (file : Bytes) (position : Nat) (databaseType : Int) :
    Except JavaException DatabaseStructure :=
  if databaseType = DatabaseInfo.REGION_EDITION_REV0 then
    .ok { databaseType, databaseSegments := some STATE_BEGIN_REV0
          recordLength := STANDARD_RECORD_LENGTH }
  else if databaseType = DatabaseInfo.REGION_EDITION_REV1 then
    .ok { databaseType, databaseSegments := some STATE_BEGIN_REV1
          recordLength := STANDARD_RECORD_LENGTH }
  else if segmentEditions.contains databaseType then do
    let buf ← readFully file (position + 1) SEGMENT_RECORD_LENGTH
    return { databaseType, databaseSegments := some (littleEndian buf)
             recordLength :=
               if standardEditions.contains databaseType then STANDARD_RECORD_LENGTH
               else ORG_RECORD_LENGTH }
  else .ok { databaseType, databaseSegments := none, recordLength := 0 }

/-- What `init` finds out about the file; without structure info it is taken for
a country database. -/
def readStructure (file : Bytes) : Except JavaException DatabaseStructure := do
  let found ← findStructure file STRUCTURE_INFO_MAX_SIZE (file.length - 3)
  let read ←
    match found with
    | some position => do readSegments file position (← readType file position)
    | none =>
        .ok { databaseType := DatabaseInfo.COUNTRY_EDITION, databaseSegments := none
              recordLength := 0 }
  if countryEditions.contains read.databaseType then
    return { read with databaseSegments := some COUNTRY_BEGIN
                       recordLength := STANDARD_RECORD_LENGTH }
  else return read

/-- `databaseSegments[0]`. -/
def segments (database : DatabaseStructure) : Except JavaException Nat :=
  match database.databaseSegments with
  | some segments => .ok segments
  | none => .error .nullPointerException

/-- The whole file, as far as its length is an `int`. -/
def fillBuffer (file : Bytes) : Except JavaException Bytes :=
  let length := javaInt file.length
  if length < 0 then .error .negativeArraySizeException else .ok (file.take length.toNat)

/-- The constructor. After the memory cache is filled the file is closed, so
that both caches together fail. -/
def new (options : LookupOptions) (file : Bytes) : Except JavaException LookupService := do
  let database ← readStructure file
  if options.memoryCache then
    let dbbuffer ← fillBuffer file
    if options.indexCache then
      discard (segments database)
      throw .ioException
    return { database with storage := .memoryCache dbbuffer }
  else if options.indexCache then
    let segments ← segments database
    let index_cache ← readFully file 0 (segments * database.recordLength * 2)
    return { database with storage := .indexCache file index_cache }
  else return { database with storage := .standard file }

def bytesToLong (address : InetAddress) : Long :=
  BitVec.ofNat 64 (Radix.value (address.bytes.take 4))

/-- The eight bytes in `buf` after a node has been read; an exception of the file
is caught. -/
def readNode (service : LookupService) (offset : Int) (buf : Bytes) :
    Except JavaException Bytes :=
  let start := javaInt (2 * service.recordLength * offset)
  match service.storage with
  | .memoryCache dbbuffer => arrayElements dbbuffer start (2 * MAX_RECORD_LENGTH)
  | .indexCache _ index_cache => arrayElements index_cache start (2 * MAX_RECORD_LENGTH)
  | .standard file => .ok (readInto file start buf)

/-- `x[i]`. -/
def record (service : LookupService) (buf : Bytes) (i : Nat) : Int :=
  javaInt (littleEndian ((buf.drop (i * service.recordLength)).take service.recordLength))

/-- The country index, and `last_netmask` where it is set. -/
structure Seek where
  value : Int
  netmask : Option Nat
deriving DecidableEq, Repr

/-- The loop over the depths, for addresses of a width whose bits are given. -/
def seek (service : LookupService) (width : Nat) (bit : Nat → Except JavaException Bool) :
    Nat → Int → Bytes → Except JavaException Seek
  | 0, _, _ => .ok { value := 0, netmask := none }
  | depth + 1, offset, buf => do
      let buf ← service.readNode offset buf
      let one ← bit depth
      let segments ← segments service.toDatabaseStructure
      let next := service.record buf (if one then 1 else 0)
      if next ≥ segments then return { value := next, netmask := some (width - depth) }
      else seek service width bit depth next buf

def emptyBuffer : Bytes := List.replicate (2 * MAX_RECORD_LENGTH) 0

/-- `(ipAddress & (1 << depth)) > 0`, where the mask is an `int`. -/
def longBit (ipAddress : Long) (depth : Nat) : Bool :=
  0 < (ipAddress &&& ((1#32 <<< depth).signExtend 64)).toInt

def seekCountry (service : LookupService) (ipAddress : Long) : Except JavaException Seek :=
  service.seek 32 (fun depth => .ok (longBit ipAddress depth)) 32 0 emptyBuffer

/-- `(v6vec[idx] & b_mask) > 0`. -/
def vectorBit (v6vec : Bytes) (depth : Nat) : Except JavaException Bool :=
  let bnum := 127 - depth
  match v6vec[bnum >>> 3]? with
  | some byte => .ok (0 < byte.toNat &&& (1 <<< ((bnum &&& 7) ^^^ 7)))
  | none => .error .arrayIndexOutOfBoundsException

def seekCountryV6 (service : LookupService) (addr : InetAddress) : Except JavaException Seek :=
  service.seek 128 (vectorBit addr.bytes) 128 0 emptyBuffer

/-! ### What the numbers stand for -/

/-- `new Country(countryCode[ret], countryName[ret])`. -/
def country (ret : Int) : Except JavaException Country :=
  if ret < 0 then .error .arrayIndexOutOfBoundsException
  else
    match countryCode[ret.toNat]?, countryName[ret.toNat]? with
    | some code, some name => .ok { code := ascii code, name := ascii name }
    | _, _ => .error .arrayIndexOutOfBoundsException

def countryOf (found : Seek) : Except JavaException Country :=
  let ret := javaInt (found.value - COUNTRY_BEGIN)
  if ret = 0 then .ok UNKNOWN_COUNTRY else country ret

def getCountry (service : LookupService) (ipAddress : Long) : Except JavaException Country := do
  countryOf (← service.seekCountry ipAddress)

def getCountryV6 (service : LookupService) (addr : InetAddress) :
    Except JavaException Country := do
  countryOf (← service.seekCountryV6 addr)

def recordPointer (service : LookupService) (segments : Nat) (value : Int) : Int :=
  javaInt (value + (2 * service.recordLength - 1) * segments)

/-- `System.arraycopy` of what is left of the cache to a buffer of zeros. -/
def copyData (dbbuffer : Bytes) (pointer : Int) (size : Nat) : Except JavaException Bytes :=
  if pointer < 0 ∨ dbbuffer.length < pointer.toNat then .error .arrayIndexOutOfBoundsException
  else
    let copied := (dbbuffer.drop pointer.toNat).take size
    .ok (copied ++ List.replicate (size - copied.length) 0)

def zeroTerminated (buf : Bytes) : Except JavaException (Bytes × Bytes) :=
  match buf.dropWhile (· ≠ 0) with
  | _ :: rest => .ok (buf.takeWhile (· ≠ 0), rest)
  | [] => .error .arrayIndexOutOfBoundsException

/-- The data of an organisation; an I/O error ends `getOrg` with `null` when it
comes from `seek`, and is ignored when it comes from `readFully`. -/
def readOrg (service : LookupService) (pointer : Int) : Except JavaException (Option Bytes) :=
  let zeros := List.replicate MAX_ORG_RECORD_LENGTH 0
  let fromFile (file : Bytes) : Option Bytes :=
    if pointer < 0 then none else some (readInto file pointer zeros)
  match service.storage with
  | .memoryCache dbbuffer => some <$> copyData dbbuffer pointer MAX_ORG_RECORD_LENGTH
  | .indexCache file _ => .ok (fromFile file)
  | .standard file => .ok (fromFile file)

def orgOf (service : LookupService) (read : Int → Except JavaException (Option Bytes))
    (found : Seek) : Except JavaException (Option Bytes) := do
  let segments ← segments service.toDatabaseStructure
  if found.value = segments then return none
  match ← read (service.recordPointer segments found.value) with
  | some buf => return some (← zeroTerminated buf).1
  | none => return none

def getOrg (service : LookupService) (ipnum : Long) : Except JavaException (Option Bytes) := do
  service.orgOf service.readOrg (← service.seekCountry ipnum)

/-- A buffer that a file has to fill; `none` is an I/O error, which is caught. -/
def readWhole (service : LookupService) (pointer : Int) (size : Nat) :
    Except JavaException (Option Bytes) :=
  match service.storage with
  | .memoryCache dbbuffer => some <$> copyData dbbuffer pointer size
  | .indexCache file _ => .ok (readFully file pointer size).toOption
  | .standard file => .ok (readFully file pointer size).toOption

/-- Here an I/O error of either call gives `null`. -/
def readOrgV6 (service : LookupService) (pointer : Int) :
    Except JavaException (Option Bytes) :=
  service.readWhole pointer MAX_ORG_RECORD_LENGTH

def getOrgV6 (service : LookupService) (addr : InetAddress) :
    Except JavaException (Option Bytes) := do
  service.orgOf service.readOrgV6 (← service.seekCountryV6 addr)

/-- `(float) sum / 10000 - 180`. -/
def coordinate (sum : Nat) : Rat :=
  Rounding.round 24 (Rounding.round 24 (sum / 10000) - 180)

def threeBytes : Bytes → Except JavaException (Nat × Bytes)
  | b0 :: b1 :: b2 :: rest => .ok (littleEndian [b0, b1, b2], rest)
  | _ => .error .arrayIndexOutOfBoundsException

def present (text : Bytes) : Option Bytes := if text = [] then none else some text

/-- The fields of a location in a buffer. -/
def parseLocation (databaseType : Int) : Bytes → Except JavaException Location
  | [] => .error .arrayIndexOutOfBoundsException
  | index :: rest => do
      let country ← country index.toNat
      let (region, rest) ← zeroTerminated rest
      let (city, rest) ← zeroTerminated rest
      let (postalCode, rest) ← zeroTerminated rest
      let (latitude, rest) ← threeBytes rest
      let (longitude, rest) ← threeBytes rest
      let record : Location :=
        { countryCode := some country.code, countryName := some country.name
          region := present region, city := present city, postalCode := present postalCode
          latitude := coordinate latitude, longitude := coordinate longitude
          dma_code := 0, area_code := 0, metro_code := 0 }
      if databaseType = DatabaseInfo.CITY_EDITION_REV1 ∧ country.code = ascii "US" then
        let (metroarea_combo, _) ← threeBytes rest
        return { record with
          dma_code := metroarea_combo / 1000
          metro_code := metroarea_combo / 1000
          area_code := metroarea_combo % 1000 }
      else return record

def readLocation (service : LookupService) (pointer : Int) : Except JavaException (Option Bytes) :=
  service.readWhole pointer FULL_RECORD_LENGTH

def locationOf (service : LookupService) (found : Seek) :
    Except JavaException (Option Location) := do
  let segments ← segments service.toDatabaseStructure
  if found.value = segments then return none
  match ← service.readLocation (service.recordPointer segments found.value) with
  | some record_buf => some <$> parseLocation service.databaseType record_buf
  | none => return some Location.empty

def getLocation (service : LookupService) (ipnum : Long) :
    Except JavaException (Option Location) := do
  service.locationOf (← service.seekCountry ipnum)

def getLocationV6 (service : LookupService) (addr : InetAddress) :
    Except JavaException (Option Location) := do
  service.locationOf (← service.seekCountryV6 addr)

end LookupService

end Packetpig
