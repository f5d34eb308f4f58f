/-
The UDFs of udf/geoip: they open a database with a memory cache and look up an
address that is given as text.

`InetAddress.getByName` is a parameter, `none` being an `UnknownHostException`,
and so is the text of a `float`. Of a tuple only its first field is used, a text.
-/

import Packetpig.GeoIp.LookupService

namespace Packetpig

open Text

namespace LookupService

variable (getByName : Bytes → Option InetAddress) (service : LookupService)

/-- `getCountry(String)`. -/
def getCountryByName (ipAddress : Bytes) : Except JavaException Country :=
  match getByName ipAddress with
  | some addr => service.getCountry (bytesToLong addr)
  | none => .ok UNKNOWN_COUNTRY

/-- `getLocation(String)`. -/
def getLocationByName (str : Bytes) : Except JavaException (Option Location) :=
  match getByName str with
  | some addr => service.getLocation (bytesToLong addr)
  | none => .ok none

/-- `getOrg(String)`. -/
def getOrgByName (str : Bytes) : Except JavaException (Option Bytes) :=
  match getByName str with
  | some addr => service.getOrg (bytesToLong addr)
  | none => .ok none

end LookupService

namespace Udf

def openDatabase (files : Bytes → Option Bytes) (name : String) :
    Except JavaException LookupService :=
  match files (ascii ("data/" ++ name)) with
  | some file => LookupService.new GEOIP_MEMORY_CACHE file
  | none =>
      match files (ascii name) with
      | some file => LookupService.new GEOIP_MEMORY_CACHE file
      | none => .error .ioException

variable (files : Bytes → Option Bytes) (getByName : Bytes → Option InetAddress)
  (cl : LookupService)

def ASNum.new : Except JavaException LookupService := openDatabase files "GeoIPASNum.dat"
def Country.new : Except JavaException LookupService := openDatabase files "GeoIP.dat"
def City.new : Except JavaException LookupService := openDatabase files "GeoLiteCity.dat"
def LatLon.new : Except JavaException LookupService := openDatabase files "GeoLiteCity.dat"

def ASNum.exec (ipaddr : Bytes) : Except JavaException (Option Bytes) :=
  cl.getOrgByName getByName ipaddr

def Country.exec (ipaddr : Bytes) : Except JavaException Bytes :=
  Packetpig.Country.code <$> cl.getCountryByName getByName ipaddr

/-- `location.city`. -/
def City.exec : List Bytes → Except JavaException (Option Bytes)
  | ipaddr :: _ => do
      match ← cl.getLocationByName getByName ipaddr with
      | some location => return location.city
      | none => return none
  | [] => .ok none

/-- `location.latitude + " " + location.longitude`. -/
def LatLon.exec (floatText : Rat → Bytes) : List Bytes → Except JavaException (Option Bytes)
  | ipaddr :: _ => do
      match ← cl.getLocationByName getByName ipaddr with
      | some location =>
          return some (floatText location.latitude ++ ascii " " ++ floatText location.longitude)
      | none => return none
  | [] => .ok none

end Udf

end Packetpig
