/-
Databases whose data are records, of organisations or of locations: what is
written for a prefix is what the lookups of its addresses return.
-/

import Packetpig.GeoIp.DatabaseFile
import Packetpig.GeoIp.Udf

namespace Packetpig

open Text PrefixTree

namespace InetAddress

theorem longBits_length (address : InetAddress) : address.longBits.length = 32 := by
  rw [longBits, BitString.ofBytes_length, List.length_take]
  rcases address.length_eq with same | same
  · omega
  · omega

theorem bits_length {address : InetAddress} (long : address.bytes.length = 16) :
    address.bits.length = 128 := by
  rw [bits, BitString.ofBytes_length, long]

end InetAddress

/-- A database with a record, or none, for every address of a width. -/
structure RecordDatabase (ρ : Type) (encode : ρ → Bytes) (width : Nat) extends Database where
  records : PrefixTree (Option ρ)
  shallow : records.height ≤ width
  tree_eq : toDatabaseTree.tree = records.map (Option.map encode)

namespace RecordDatabase

open LookupService

variable {ρ : Type} {encode : ρ → Bytes} {width : Nat} (database : RecordDatabase ρ encode width)

def recordOf (bits : List Bool) : Option ρ := (database.records.follow bits).bind Prod.fst

theorem follow_tree {bits : List Bool} (long : bits.length = width) :
    ∃ length, database.tree.follow bits = some ((database.recordOf bits).map encode, length) := by
  have deep : database.records.height ≤ bits.length := long ▸ database.shallow
  obtain ⟨⟨found, length⟩, reached⟩ := Option.isSome_iff_exists.mp (follow_isSome deep)
  refine ⟨length, ?_⟩
  rw [database.tree_eq, follow_map, recordOf, reached]
  rfl

end RecordDatabase

theorem RecordDatabase.seekCountry_record {ρ : Type} {encode : ρ → Bytes}
    (database : RecordDatabase ρ encode 32) (address : InetAddress) :
    ∃ answer, database.service.seekCountry (LookupService.bytesToLong address) = .ok answer ∧
      database.Points ((database.recordOf address.longBits).map encode) answer.value := by
  obtain ⟨length, reached⟩ := database.follow_tree address.longBits_length
  obtain ⟨value, found, points⟩ := database.seekCountry_file reached
  exact ⟨_, found, points⟩

theorem RecordDatabase.seekCountryV6_record {ρ : Type} {encode : ρ → Bytes}
    (database : RecordDatabase ρ encode 128) {address : InetAddress}
    (long : address.bytes.length = 16) :
    ∃ answer, database.service.seekCountryV6 address = .ok answer ∧
      database.Points ((database.recordOf address.bits).map encode) answer.value := by
  obtain ⟨length, reached⟩ := database.follow_tree (InetAddress.bits_length long)
  obtain ⟨value, found, points⟩ := database.seekCountryV6_file long reached
  exact ⟨_, found, points⟩

namespace LookupService

theorem zeroTerminated_append {text : Bytes} (noZero : 0 ∉ text) (rest : Bytes) :
    zeroTerminated (text ++ 0 :: rest) = .ok (text, rest) := by
  have others : ∀ byte ∈ text, decide (byte ≠ 0) = true := by
    intro byte member
    rw [decide_eq_true_eq]
    exact fun same => noZero (same ▸ member)
  have taken : (text ++ 0 :: rest).takeWhile (fun byte => decide (byte ≠ 0)) = text := by
    rw [List.takeWhile_append_of_pos others, List.takeWhile_cons_of_neg (by simp),
      List.append_nil]
  have dropped : (text ++ 0 :: rest).dropWhile (fun byte => decide (byte ≠ 0)) = 0 :: rest := by
    rw [List.dropWhile_append_of_pos others, List.dropWhile_cons_of_neg (by simp)]
  unfold zeroTerminated
  rw [dropped, taken]

theorem take_front {bytes : Bytes} (rest : Bytes) {size : Nat}
    (short : bytes.length ≤ size) :
    (bytes ++ rest).take size = bytes ++ rest.take (size - bytes.length) := by
  rw [List.take_append, List.take_of_length_le short]

end LookupService

/-- A name that its buffer has room for. -/
structure OrganisationName where
  text : Bytes
  noZero : 0 ∉ text
  short : text.length < LookupService.MAX_ORG_RECORD_LENGTH

def OrganisationName.encode (name : OrganisationName) : Bytes := name.text ++ [0]

namespace Database

open LookupService

variable (database : Database)

private theorem orgOf_points {read : Int → Except JavaException (Option Bytes)}
    (copies : ∀ pointer, read pointer =
      some <$> copyData database.file pointer MAX_ORG_RECORD_LENGTH)
    {name : Option OrganisationName} {answer : Seek}
    (points : database.Points (name.map OrganisationName.encode) answer.value) :
    database.service.orgOf read answer = .ok (name.map OrganisationName.text) := by
  unfold orgOf
  simp only [LookupService.segments, service_segments, bind, Except.bind]
  cases name with
  | none =>
      rcases answer with ⟨value, netmask⟩
      cases points
      exact if_pos rfl
  | some name =>
      obtain ⟨found, rest, copied, -⟩ := database.copyData_points points MAX_ORG_RECORD_LENGTH
      have room : name.encode.length ≤ MAX_ORG_RECORD_LENGTH := by
        rw [OrganisationName.encode, List.length_append]
        exact name.short
      rw [take_front rest room, OrganisationName.encode, List.append_assoc,
        List.singleton_append] at copied
      rw [if_neg found, copies, copied]
      simp only [Functor.map, Except.map, zeroTerminated_append name.noZero]
      rfl

end Database

namespace RecordDatabase

open LookupService

theorem getOrg_record (database : RecordDatabase OrganisationName OrganisationName.encode 32)
    (address : InetAddress) :
    database.service.getOrg (bytesToLong address) =
      .ok ((database.recordOf address.longBits).map OrganisationName.text) := by
  obtain ⟨answer, found, points⟩ := database.seekCountry_record address
  have copies : ∀ pointer, database.service.readOrg pointer =
      some <$> copyData database.file pointer MAX_ORG_RECORD_LENGTH := by
    intro pointer
    unfold readOrg
    rw [database.service_storage]
  rw [getOrg, found]
  exact database.orgOf_points copies points

theorem getOrgV6_record (database : RecordDatabase OrganisationName OrganisationName.encode 128)
    {address : InetAddress} (long : address.bytes.length = 16) :
    database.service.getOrgV6 address =
      .ok ((database.recordOf address.bits).map OrganisationName.text) := by
  obtain ⟨answer, found, points⟩ := database.seekCountryV6_record long
  have copies : ∀ pointer, database.service.readOrgV6 pointer =
      some <$> copyData database.file pointer MAX_ORG_RECORD_LENGTH := by
    intro pointer
    unfold readOrgV6 readWhole
    rw [database.service_storage]
  rw [getOrgV6, found]
  exact database.orgOf_points copies points

end RecordDatabase

end Packetpig
