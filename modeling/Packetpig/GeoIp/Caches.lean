/-
The caches of a service compared with reading its file: where a cache answers,
the file gives the same answer, but for a location too close to the end of the
file.
-/

import Packetpig.GeoIp.LookupService

namespace Packetpig

open Text

namespace LookupService

open RandomAccessFile

/-- The storage of an open service. Both caches begin like the file; the memory
cache has all of it if its length is an `int`. -/
inductive Opened (file : Bytes) : LookupStorage → Prop
  | standard : Opened file (.standard file)
  | memoryCache (length : Nat) (whole : file.length < intBound → file.length ≤ length) :
      Opened file (.memoryCache (file.take length))
  | indexCache (length : Nat) : Opened file (.indexCache file (file.take length))

theorem readFully_eq_ok {file read : Bytes} {position : Int} {count : Nat}
    (done : readFully file position count = .ok read) :
    0 ≤ position ∧ position.toNat + count ≤ file.length ∧
      read = (file.drop position.toNat).take count := by
  unfold readFully at done
  split at done
  · cases done
  · split at done
    · cases done
    · exact ⟨by omega, by omega, (Except.ok.inj done).symm⟩

theorem arrayElements_eq_ok {array read : Bytes} {start : Int} {count : Nat}
    (done : arrayElements array start count = .ok read) :
    0 ≤ start ∧ start.toNat + count ≤ array.length ∧
      read = (array.drop start.toNat).take count := by
  unfold arrayElements at done
  split at done
  · cases done
  · split at done
    · cases done
    · exact ⟨by omega, by omega, (Except.ok.inj done).symm⟩

theorem javaInt_natCast {value : Nat} (small : value < intBound) : javaInt value = value :=
  Int.bmod_eq_of_le (by omega) (by unfold intBound at small; omega)

theorem fillBuffer_eq {file : Bytes} (small : file.length < intBound) :
    fillBuffer file = .ok file := by
  unfold fillBuffer
  dsimp only
  rw [javaInt_natCast small, if_neg (Int.not_lt.mpr (Int.natCast_nonneg _)), Int.toNat_natCast,
    List.take_length]

theorem fillBuffer_eq_ok {file dbbuffer : Bytes} (filled : fillBuffer file = .ok dbbuffer) :
    ∃ length, dbbuffer = file.take length ∧ (file.length < intBound → file.length ≤ length) := by
  have whole : file.length < intBound → file.length ≤ (javaInt file.length).toNat := by
    intro small
    rw [javaInt_natCast small, Int.toNat_natCast]
  unfold fillBuffer at filled
  dsimp only at filled
  split at filled
  · cases filled
  · exact ⟨_, (Except.ok.inj filled).symm, whole⟩

theorem new_eq_ok {options : LookupOptions} {file : Bytes} {service : LookupService}
    (opened : new options file = .ok service) :
    readStructure file = .ok service.toDatabaseStructure ∧ Opened file service.storage := by
  obtain ⟨database, read, opened⟩ := bind_eq_ok opened
  dsimp only at opened
  split at opened
  · obtain ⟨dbbuffer, filled, opened⟩ := bind_eq_ok opened
    obtain ⟨length, same, whole⟩ := fillBuffer_eq_ok filled
    split at opened
    · obtain ⟨-, -, opened⟩ := bind_eq_ok opened
      cases opened
    · cases opened
      subst same
      exact ⟨read, .memoryCache length whole⟩
  · split at opened
    · obtain ⟨segments, -, opened⟩ := bind_eq_ok opened
      obtain ⟨index_cache, filled, opened⟩ := bind_eq_ok opened
      obtain ⟨-, -, same⟩ := readFully_eq_ok filled
      cases opened
      rw [same]
      exact ⟨read, .indexCache _⟩
    · cases opened
      exact ⟨read, .standard⟩

theorem new_memoryCache {file : Bytes} {service : LookupService}
    (read : readStructure file = .ok service.toDatabaseStructure)
    (cached : service.storage = .memoryCache file) (small : file.length < intBound) :
    new GEOIP_MEMORY_CACHE file = .ok service := by
  cases service with
  | mk database storage =>
      subst cached
      unfold new GEOIP_MEMORY_CACHE
      rw [read, fillBuffer_eq small]
      rfl

/-- The service on the same file without a cache. -/
def plain (service : LookupService) (file : Bytes) : LookupService :=
  { service with storage := .standard file }

theorem new_standard {file : Bytes} {service : LookupService}
    (read : readStructure file = .ok service.toDatabaseStructure) :
    new GEOIP_STANDARD file = .ok (service.plain file) := by
  unfold new
  rw [read]
  rfl

private theorem take_drop_take {α : Type} {items : List α} {length start count : Nat}
    (inside : start + count ≤ (items.take length).length) :
    ((items.take length).drop start).take count = (items.drop start).take count := by
  rw [List.length_take] at inside
  rw [List.drop_take, List.take_take]
  congr 1
  omega

theorem readNode_plain {service : LookupService} {file : Bytes}
    (opened : Opened file service.storage) {offset : Int} {buf buf' : Bytes}
    (full : buf.length = 2 * MAX_RECORD_LENGTH) (read : service.readNode offset buf = .ok buf') :
    (service.plain file).readNode offset buf = .ok buf' ∧
      buf'.length = 2 * MAX_RECORD_LENGTH := by
  have cached : ∀ length : Nat,
      arrayElements (file.take length) (javaInt (2 * service.recordLength * offset))
        (2 * MAX_RECORD_LENGTH) = .ok buf' →
      (service.plain file).readNode offset buf = .ok buf' ∧
        buf'.length = 2 * MAX_RECORD_LENGTH := by
    intro length elements
    obtain ⟨positive, inside, same⟩ := arrayElements_eq_ok elements
    rw [take_drop_take inside] at same
    rw [List.length_take] at inside
    have width : buf'.length = 2 * MAX_RECORD_LENGTH := by
      rw [same, List.length_take, List.length_drop]
      omega
    refine ⟨?_, width⟩
    unfold readNode plain readInto
    dsimp only
    rw [if_neg (by omega), full, ← same, List.drop_eq_nil_of_le (by omega), List.append_nil]
  unfold readNode at read
  generalize storage : service.storage = stored at opened read
  cases opened with
  | memoryCache length whole => exact cached length read
  | indexCache length => exact cached length read
  | standard =>
      refine ⟨?_, ?_⟩
      · rw [← read]
        rfl
      · have same := Except.ok.inj read
        rw [← same]
        unfold readInto
        split
        · exact full
        · rw [List.length_append, List.length_drop, List.length_take]
          omega

theorem seek_plain {service : LookupService} {file : Bytes}
    (opened : Opened file service.storage) {width : Nat} {bit : Nat → Except JavaException Bool}
    {depth : Nat} {offset : Int} {buf : Bytes} {answer : Seek}
    (full : buf.length = 2 * MAX_RECORD_LENGTH)
    (found : service.seek width bit depth offset buf = .ok answer) :
    (service.plain file).seek width bit depth offset buf = .ok answer := by
  induction depth generalizing offset buf with
  | zero => exact found
  | succ depth ih =>
      rw [seek] at found ⊢
      obtain ⟨buf', read, found⟩ := bind_eq_ok found
      obtain ⟨one, looked, found⟩ := bind_eq_ok found
      obtain ⟨segments, known, found⟩ := bind_eq_ok found
      obtain ⟨again, full'⟩ := readNode_plain opened full read
      have known' : LookupService.segments (service.plain file).toDatabaseStructure =
          .ok segments := known
      simp only [again, looked, known', bind, Except.bind]
      by_cases isLeaf : service.record buf' (if one then 1 else 0) ≥ segments
      · rw [if_pos isLeaf] at found
        rw [← found]
        exact if_pos isLeaf
      · rw [if_neg isLeaf] at found
        have later := ih full' found
        rw [← later]
        exact if_neg isLeaf

theorem copyData_eq_ok {dbbuffer copied : Bytes} {pointer : Int} {size : Nat}
    (done : copyData dbbuffer pointer size = .ok copied) :
    0 ≤ pointer ∧ pointer.toNat ≤ dbbuffer.length ∧
      copied = readInto dbbuffer pointer (List.replicate size 0) := by
  unfold copyData at done
  split at done
  · cases done
  · rename_i inside
    rw [not_or] at inside
    refine ⟨by omega, by omega, ?_⟩
    rw [← Except.ok.inj done, readInto, if_neg (by omega)]
    simp only [List.length_replicate, List.drop_replicate]

private theorem readInto_eq_readFully {file : Bytes} {pointer : Int} {size : Nat}
    (positive : 0 ≤ pointer) (fits : pointer.toNat + size ≤ file.length) :
    readFully file pointer size = .ok (readInto file pointer (List.replicate size 0)) := by
  have width : ((file.drop pointer.toNat).take size).length = size := by
    rw [List.length_take, List.length_drop]
    omega
  unfold readFully readInto
  rw [if_neg (by omega), if_neg (by omega), if_neg (by omega)]
  simp only [List.length_replicate, width, List.drop_replicate, Nat.sub_self,
    List.replicate_zero, List.append_nil]

private theorem take_whole {file : Bytes} {length : Nat} (small : file.length < intBound)
    (whole : file.length < intBound → file.length ≤ length) : file.take length = file :=
  List.take_of_length_le (whole small)

private theorem readFully_plain {file copied : Bytes} {pointer : Int} {size : Nat}
    (copy : copyData file pointer size = .ok copied) :
    (readFully file pointer size).toOption = some copied ∨
      (readFully file pointer size).toOption = none ∧ file.length < pointer.toNat + size := by
  obtain ⟨positive, -, filled⟩ := copyData_eq_ok copy
  by_cases fits : pointer.toNat + size ≤ file.length
  · left
    rw [readInto_eq_readFully positive fits, ← filled]
    rfl
  · right
    refine ⟨?_, by omega⟩
    unfold readFully
    rw [if_neg (by omega), if_pos (by omega)]
    rfl

section Data

variable {service : LookupService} {file : Bytes} (small : file.length < intBound)
  (opened : Opened file service.storage) {pointer : Int}

include small opened

theorem readOrg_plain {found : Option Bytes} (done : service.readOrg pointer = .ok found) :
    (service.plain file).readOrg pointer = .ok found := by
  unfold readOrg at done
  generalize storage : service.storage = stored at opened done
  cases opened with
  | standard => exact done
  | indexCache length => exact done
  | memoryCache length whole =>
      dsimp only at done
      rw [take_whole small whole] at done
      obtain ⟨copied, copy, same⟩ := map_eq_ok done
      obtain ⟨positive, -, filled⟩ := copyData_eq_ok copy
      unfold readOrg plain
      dsimp only
      rw [if_neg (by omega), ← filled, same]

theorem readWhole_plain {size : Nat} {found : Option Bytes}
    (done : service.readWhole pointer size = .ok found) :
    (service.plain file).readWhole pointer size = .ok found ∨
      (service.plain file).readWhole pointer size = .ok none ∧
        file.length < pointer.toNat + size := by
  unfold readWhole at done
  generalize storage : service.storage = stored at opened done
  cases opened with
  | standard => exact .inl done
  | indexCache length => exact .inl done
  | memoryCache length whole =>
      dsimp only at done
      rw [take_whole small whole] at done
      obtain ⟨copied, copy, same⟩ := map_eq_ok done
      subst same
      unfold readWhole plain
      dsimp only
      rcases readFully_plain copy with filled | ⟨none, short⟩
      · exact .inl (congrArg Except.ok filled)
      · exact .inr ⟨congrArg Except.ok none, short⟩

end Data

/-! ### The answers -/

/-- A service gives the answers of another one, wherever it gives one. Where a
buffer has to be filled, the other service may find too few bytes in front of
the end of its file. -/
structure AnswersOf (service other : LookupService) (length : Nat) : Prop where
  seekCountry : ∀ ipAddress answer, service.seekCountry ipAddress = .ok answer →
    other.seekCountry ipAddress = .ok answer
  seekCountryV6 : ∀ addr answer, service.seekCountryV6 addr = .ok answer →
    other.seekCountryV6 addr = .ok answer
  getCountry : ∀ ipAddress country, service.getCountry ipAddress = .ok country →
    other.getCountry ipAddress = .ok country
  getCountryV6 : ∀ addr country, service.getCountryV6 addr = .ok country →
    other.getCountryV6 addr = .ok country
  getOrg : ∀ ipnum org, service.getOrg ipnum = .ok org → other.getOrg ipnum = .ok org
  getOrgV6 : ∀ addr org, service.getOrgV6 addr = .ok org →
    other.getOrgV6 addr = .ok org ∨
      other.getOrgV6 addr = .ok none ∧ ∃ segments answer,
        service.databaseSegments = some segments ∧ service.seekCountryV6 addr = .ok answer ∧
          length < (service.recordPointer segments answer.value).toNat + MAX_ORG_RECORD_LENGTH
  getLocation : ∀ ipnum location, service.getLocation ipnum = .ok location →
    other.getLocation ipnum = .ok location ∨
      other.getLocation ipnum = .ok (some Location.empty) ∧ ∃ segments answer,
        service.databaseSegments = some segments ∧ service.seekCountry ipnum = .ok answer ∧
          length < (service.recordPointer segments answer.value).toNat + FULL_RECORD_LENGTH
  getLocationV6 : ∀ addr location, service.getLocationV6 addr = .ok location →
    other.getLocationV6 addr = .ok location ∨
      other.getLocationV6 addr = .ok (some Location.empty) ∧ ∃ segments answer,
        service.databaseSegments = some segments ∧ service.seekCountryV6 addr = .ok answer ∧
          length < (service.recordPointer segments answer.value).toNat + FULL_RECORD_LENGTH

theorem segments_eq_ok {database : DatabaseStructure} {segments : Nat}
    (known : LookupService.segments database = .ok segments) :
    database.databaseSegments = some segments := by
  unfold LookupService.segments at known
  cases stored : database.databaseSegments with
  | none =>
      rw [stored] at known
      cases known
  | some value =>
      rw [stored] at known
      cases known
      rfl

section Answers

variable {service : LookupService} {file : Bytes} (small : file.length < intBound)
  (opened : Opened file service.storage)

include small opened

private theorem locationOf_plain {answer : Seek} {location : Option Location}
    (done : service.locationOf answer = .ok location) :
    (service.plain file).locationOf answer = .ok location ∨
      (service.plain file).locationOf answer = .ok (some Location.empty) ∧ ∃ segments,
        service.databaseSegments = some segments ∧
          file.length < (service.recordPointer segments answer.value).toNat +
            FULL_RECORD_LENGTH := by
  unfold locationOf at done ⊢
  obtain ⟨segments, known, done⟩ := bind_eq_ok done
  have known' : LookupService.segments (service.plain file).toDatabaseStructure =
      .ok segments := known
  rw [known']
  by_cases none : answer.value = segments
  · rw [if_pos none] at done
    exact .inl (done ▸ if_pos none)
  · rw [if_neg none] at done
    obtain ⟨found, read, done⟩ := bind_eq_ok done
    rcases readWhole_plain small opened read with same | ⟨missing, short⟩
    · left
      rw [← done]
      change (if answer.value = segments then _ else _) = _
      rw [if_neg none]
      change ((service.plain file).readWhole (service.recordPointer segments answer.value)
        FULL_RECORD_LENGTH >>= _) = _
      rw [same]
      rfl
    · right
      refine ⟨?_, segments, segments_eq_ok known, short⟩
      change (if answer.value = segments then _ else _) = _
      rw [if_neg none]
      change ((service.plain file).readWhole (service.recordPointer segments answer.value)
        FULL_RECORD_LENGTH >>= _) = _
      rw [missing]
      rfl

private theorem orgOf_plain {answer : Seek} {org : Option Bytes}
    (done : service.orgOf service.readOrg answer = .ok org) :
    (service.plain file).orgOf (service.plain file).readOrg answer = .ok org := by
  unfold orgOf at done ⊢
  obtain ⟨segments, known, done⟩ := bind_eq_ok done
  have known' : LookupService.segments (service.plain file).toDatabaseStructure =
      .ok segments := known
  rw [known']
  change (if answer.value = segments then _ else _) = _
  by_cases none : answer.value = segments
  · rw [if_pos none] at done ⊢
    exact done
  · rw [if_neg none] at done ⊢
    obtain ⟨found, read, done⟩ := bind_eq_ok done
    change ((service.plain file).readOrg (service.recordPointer segments answer.value) >>= _) = _
    rw [readOrg_plain small opened read]
    exact done

private theorem orgOfV6_plain {answer : Seek} {org : Option Bytes}
    (done : service.orgOf service.readOrgV6 answer = .ok org) :
    (service.plain file).orgOf (service.plain file).readOrgV6 answer = .ok org ∨
      (service.plain file).orgOf (service.plain file).readOrgV6 answer = .ok none ∧
        ∃ segments, service.databaseSegments = some segments ∧
          file.length < (service.recordPointer segments answer.value).toNat +
            MAX_ORG_RECORD_LENGTH := by
  unfold orgOf at done ⊢
  obtain ⟨segments, known, done⟩ := bind_eq_ok done
  have known' : LookupService.segments (service.plain file).toDatabaseStructure =
      .ok segments := known
  rw [known']
  by_cases none : answer.value = segments
  · rw [if_pos none] at done
    exact .inl (done ▸ if_pos none)
  · rw [if_neg none] at done
    obtain ⟨found, read, done⟩ := bind_eq_ok done
    rcases readWhole_plain small opened read with same | ⟨missing, short⟩
    · left
      change (if answer.value = segments then _ else _) = _
      rw [if_neg none]
      change ((service.plain file).readWhole (service.recordPointer segments answer.value)
        MAX_ORG_RECORD_LENGTH >>= _) = _
      rw [same]
      exact done
    · right
      refine ⟨?_, segments, segments_eq_ok known, short⟩
      change (if answer.value = segments then _ else _) = _
      rw [if_neg none]
      change ((service.plain file).readWhole (service.recordPointer segments answer.value)
        MAX_ORG_RECORD_LENGTH >>= _) = _
      rw [missing]
      rfl

end Answers

/-- A service with any cache answers like the one that reads the same file. -/
theorem caches_agree {options : LookupOptions} {file : Bytes} {service : LookupService}
    (small : file.length < intBound) (opened : new options file = .ok service) :
    ∃ standard, new GEOIP_STANDARD file = .ok standard ∧
      AnswersOf service standard file.length := by
  obtain ⟨read, stored⟩ := new_eq_ok opened
  refine ⟨service.plain file, new_standard read, ?_⟩
  have seeks : ∀ ipAddress answer, service.seekCountry ipAddress = .ok answer →
      (service.plain file).seekCountry ipAddress = .ok answer :=
    fun _ _ found => seek_plain stored rfl found
  have seeksV6 : ∀ addr answer, service.seekCountryV6 addr = .ok answer →
      (service.plain file).seekCountryV6 addr = .ok answer :=
    fun _ _ found => seek_plain stored rfl found
  constructor
  case seekCountry => exact seeks
  case seekCountryV6 => exact seeksV6
  case getCountry =>
    intro ipAddress country done
    obtain ⟨answer, found, done⟩ := bind_eq_ok done
    rw [getCountry, seeks _ _ found]
    exact done
  case getCountryV6 =>
    intro addr country done
    obtain ⟨answer, found, done⟩ := bind_eq_ok done
    rw [getCountryV6, seeksV6 _ _ found]
    exact done
  case getOrg =>
    intro ipnum org done
    obtain ⟨answer, found, done⟩ := bind_eq_ok done
    rw [getOrg, seeks _ _ found]
    exact orgOf_plain small stored done
  case getOrgV6 =>
    intro addr org done
    obtain ⟨answer, found, done⟩ := bind_eq_ok done
    rw [getOrgV6, seeksV6 _ _ found]
    rcases orgOfV6_plain small stored done with same | ⟨missing, segments, known, short⟩
    · exact .inl same
    · exact .inr ⟨missing, segments, answer, known, found, short⟩
  case getLocation =>
    intro ipnum location done
    obtain ⟨answer, found, done⟩ := bind_eq_ok done
    rw [getLocation, seeks _ _ found]
    rcases locationOf_plain small stored done with same | ⟨missing, segments, known, short⟩
    · exact .inl same
    · exact .inr ⟨missing, segments, answer, known, found, short⟩
  case getLocationV6 =>
    intro addr location done
    obtain ⟨answer, found, done⟩ := bind_eq_ok done
    rw [getLocationV6, seeksV6 _ _ found]
    rcases locationOf_plain small stored done with same | ⟨missing, segments, known, short⟩
    · exact .inl same
    · exact .inr ⟨missing, segments, answer, known, found, short⟩

theorem caches_agree_sample :
    ∃ standard, new GEOIP_STANDARD [16, 255, 255, 0, 255, 255, 255, 255, 255, 1] = .ok standard ∧
      standard.getCountry 0 = .ok { code := ascii "AU", name := ascii "Australia" } := by
  have opened : new GEOIP_MEMORY_CACHE [16, 255, 255, 0, 255, 255, 255, 255, 255, 1] =
      .ok { databaseType := DatabaseInfo.COUNTRY_EDITION, databaseSegments := some COUNTRY_BEGIN
            recordLength := STANDARD_RECORD_LENGTH
            storage := .memoryCache [16, 255, 255, 0, 255, 255, 255, 255, 255, 1] } := by
    decide +kernel
  obtain ⟨standard, openedToo, answers⟩ := caches_agree (by decide) opened
  exact ⟨standard, openedToo, answers.getCountry 0 _ (by decide +kernel)⟩

end LookupService

end Packetpig
