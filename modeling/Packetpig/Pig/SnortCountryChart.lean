/-
The script ts-snort-country-chart.pig and the page that draws its output: the
alerts of snort by the country of their source and by bins of `$time` seconds,
where `$time` is not 0.
-/

import Packetpig.Charts.CsvRows
import Packetpig.Charts.RegularRows
import Packetpig.Detection.SnortRecordReader
import Packetpig.Library.Bins
import Packetpig.Library.Groups

namespace Packetpig

open Text Csv Js MultipleTimeSeries

/-- A row of the output, without the name of the filter. -/
structure CountryAttacks where
  country : Bytes
  ts : Int
  attacks : Nat
deriving DecidableEq, Repr

namespace SnortCountryChart

open Groups

/-- The countries of the `FILTER`. -/
def charted : List Bytes :=
  [ascii "AU", ascii "CN", ascii "DE", ascii "JP", ascii "NL", ascii "KR", ascii "NZ", ascii "US"]

/-- `ts / $time * $time`. -/
def bin (time ts : Int) : Int := Bins.bin time ts

/-- The first `FOREACH`, with the UDF as a parameter. -/
def locate (country : Bytes → Except JavaException Bytes) (time : Int)
    (alert : Keyed SnortTuple) : Except JavaException (Bytes × Int) := do
  return (← country alert.tuple.src, bin time alert.key)

def snortAlerts (located : List (Bytes × Int)) : List (Bytes × Int) :=
  located.filter fun alert => charted.contains alert.1

/-- `GROUP` and the second `FOREACH`. -/
def snortAll (alerts : List (Bytes × Int)) : List CountryAttacks :=
  (groupBy id alerts).map fun grouped =>
    { country := grouped.1.1, ts := grouped.1.2, attacks := grouped.2.length }

def script (country : Bytes → Except JavaException Bytes) (time : Int)
    (snort_alerts_real : List (Keyed SnortTuple)) : Except JavaException (List CountryAttacks) := do
  return snortAll (snortAlerts (← snort_alerts_real.mapM (locate country time)))

def allSeverities : Bytes := ascii "All Severities"

/-- The last `FOREACH`, with the numbers as texts. -/
def columns (row : CountryAttacks) : List Bytes :=
  [allSeverities, row.country, integer row.ts, decimal row.attacks]

/-- `STORE snort_all INTO … USING PigStorage(',')`. -/
def stored (rows : List CountryAttacks) : Bytes :=
  rows.flatMap fun row => [comma].intercalate (columns row) ++ [lineFeed]

/-- `row[0]` to `row[3]`. -/
def chartRow : List Bytes → Option Row
  | filter :: category :: key :: value :: _ => some { filter, category, key, value }
  | _ => none

/-- `parse` of main.html hands these rows to `create`. -/
def parse (data : Bytes) : Option (List Row) := (parseRows data).mapM chartRow

def rowOf (row : CountryAttacks) : Row :=
  { filter := allSeverities, category := row.country, key := integer row.ts,
    value := decimal row.attacks }

private theorem charted_unquoted : ∀ country ∈ charted, Unquoted country := by
  unfold Unquoted
  decide

private theorem mapM_columns (rows : List CountryAttacks) :
    (rows.map columns).mapM chartRow = some (rows.map rowOf) := by
  induction rows with
  | nil => rfl
  | cons row rows ih =>
      rw [List.map_cons, List.mapM_cons, ih]
      rfl

theorem parse_stored {rows : List CountryAttacks} (known : ∀ row ∈ rows, row.country ∈ charted) :
    parse (stored rows) = some (rows.map rowOf) := by
  have unquoted : ∀ row ∈ rows, ∀ value ∈ columns row, Unquoted value := by
    intro row member
    simp only [columns, List.forall_mem_cons, List.not_mem_nil, false_implies, implies_true,
      and_true]
    refine ⟨⟨by decide, by decide⟩, charted_unquoted _ (known row member), integer_unquoted _, ?_⟩
    rw [← integer_natCast]
    exact integer_unquoted _
  have filled : ∀ row, columns row ≠ [] := fun _ => List.cons_ne_nil _ _
  rw [parse, stored, parseRows_columns filled unquoted, mapM_columns]

theorem snortAll_eq (alerts : List (Bytes × Int)) :
    snortAll alerts = alerts.dedup.map fun place =>
      { country := place.1, ts := place.2, attacks := alerts.count place } := by
  rw [snortAll, groupBy, table, List.map_map, List.map_id]
  apply List.map_congr_left
  intro place _
  have count := group_id_length alerts place
  rw [← count]
  rfl

theorem values_of_place (alerts : List (Bytes × Int)) (country : Bytes) (start : Int) :
    ((snortAll alerts).filter fun row => row.country = country ∧ row.ts = start).map
        CountryAttacks.attacks =
      if alerts.count (country, start) = 0 then [] else [alerts.count (country, start)] := by
  have onePlace : (fun row : CountryAttacks => decide (row.country = country ∧ row.ts = start)) ∘
      (fun place : Bytes × Int => CountryAttacks.mk place.1 place.2 (alerts.count place)) =
      fun place => place == (country, start) := by
    funext place
    rw [Bool.eq_iff_iff, beq_iff_eq, Prod.ext_iff]
    exact decide_eq_true_iff
  rw [snortAll_eq, List.filter_map, onePlace, List.filter_beq, (List.nodup_dedup alerts).count]
  by_cases occurs : (country, start) ∈ alerts
  · rw [if_pos (List.mem_dedup.mpr occurs), if_neg (List.count_pos_iff.mpr occurs).ne']
    rfl
  · rw [if_neg (mt List.mem_dedup.mp occurs), if_pos (List.count_eq_zero.mpr occurs)]
    rfl

private theorem values_of_file {alerts : List (Bytes × Int)} {file : List CountryAttacks}
    (order : file.Perm (snortAll alerts)) (country : Bytes) (start : Int) :
    ((rowsOf (file.map rowOf) allSeverities country).filter fun row =>
        row.key = integer start).map Row.value =
      if alerts.count (country, start) = 0 then []
      else [decimal (alerts.count (country, start))] := by
  have chosen : (fun row : Row => decide (row.key = integer start) &&
        decide (row.filter = allSeverities ∧ row.category = country)) ∘ rowOf =
      fun row => decide (row.country = country ∧ row.ts = start) := by
    funext row
    change (decide (integer row.ts = integer start) &&
      decide (allSeverities = allSeverities ∧ row.country = country)) = _
    rw [← Bool.decide_and, decide_eq_decide]
    constructor
    · rintro ⟨sameStart, -, sameCountry⟩
      exact ⟨sameCountry, integer_injective sameStart⟩
    · rintro ⟨sameCountry, sameStart⟩
      exact ⟨congrArg integer sameStart, rfl, sameCountry⟩
  have values := values_of_place alerts country start
  have perm := ((order.filter fun row => row.country = country ∧ row.ts = start).map
    CountryAttacks.attacks).map decimal
  rw [values] at perm
  rw [rowsOf, List.filter_filter, List.filter_map, chosen, List.map_map]
  rw [List.map_map] at perm
  by_cases none : alerts.count (country, start) = 0
  · rw [if_pos none] at perm ⊢
    exact perm.eq_nil
  · rw [if_neg none] at perm ⊢
    exact List.perm_singleton.mp perm

private theorem regular_iff {ν : Type} {realm : Realm ν}
    (free : ∀ name ∈ allSeverities :: charted,
      ¬ realm.PlainInherits name ∧ ¬ realm.ArrayInherits name)
    {file : List CountryAttacks} (known : ∀ row ∈ file, row.country ∈ charted) :
    Regular realm (file.map rowOf) ↔ 2 ≤ file.length := by
  constructor
  · intro regular
    exact (List.length_map rowOf) ▸ regular.several
  · intro several
    constructor
    · rwa [List.length_map]
    · intro row member
      obtain ⟨entry, -, rfl⟩ := List.mem_map.mp member
      exact (free allSeverities List.mem_cons_self).1
    · intro row member
      obtain ⟨entry, inFile, rfl⟩ := List.mem_map.mp member
      have isCharted := known entry inFile
      refine ⟨?_, (free _ (List.mem_cons_of_mem _ isCharted)).2⟩
      change entry.country ≠ ascii "length"
      intro same
      rw [same] at isCharted
      revert isCharted
      decide
    · intro first _ second member
      obtain ⟨entry, inFile, rfl⟩ := List.mem_map.mp member
      obtain ⟨other, -, rfl⟩ := List.mem_map.mp (by assumption : first ∈ file.map rowOf)
      exact ⟨rowOf entry, member, rfl, rfl⟩

/-- The page draws the output whenever it has two rows, and then each charted
country has in each bin one point with the number of its alerts, or none. -/
theorem page_counts {ν : Type} (realm : Realm ν) (reading : Reading ν)
    (free : ∀ name ∈ allSeverities :: charted,
      ¬ realm.PlainInherits name ∧ ¬ realm.ArrayInherits name)
    {country : Bytes → Except JavaException Bytes} {code : Bytes → Bytes} (time : Int)
    (alerts : List (Keyed SnortTuple))
    (answers : ∀ alert ∈ alerts, country alert.tuple.src = .ok (code alert.tuple.src)) :
    ∃ rows, script country time alerts = .ok rows ∧
      ∀ file : List CountryAttacks, file.Perm rows → ∃ chartRows,
        parse (stored file) = some chartRows ∧
        (GroupsRows realm reading chartRows ↔ 2 ≤ rows.length) ∧
        ∀ name ∈ charted, ∀ start : Int,
          ((rowsOf chartRows allSeverities name).filter fun row =>
              row.key = integer start).map Row.value =
            let count := alerts.countP fun alert =>
              code alert.tuple.src = name ∧ bin time alert.key = start
            if count = 0 then [] else [decimal count] := by
  let located := alerts.map fun alert => (code alert.tuple.src, bin time alert.key)
  have run : script country time alerts = .ok (snortAll (snortAlerts located)) := by
    have each : alerts.mapM (locate country time) = .ok located := mapM_eq_ok fun alert member => by
      rw [locate, answers alert member]
      rfl
    rw [script, each]
    rfl
  refine ⟨_, run, ?_⟩
  intro file order
  have known : ∀ row ∈ file, row.country ∈ charted := by
    intro row member
    have inRows := order.mem_iff.mp member
    rw [snortAll_eq] at inRows
    obtain ⟨place, inAlerts, rfl⟩ := List.mem_map.mp inRows
    have kept := (List.mem_filter.mp (List.mem_dedup.mp inAlerts)).2
    exact List.contains_iff_mem.mp kept
  refine ⟨_, parse_stored known, ?_, ?_⟩
  · rw [← order.length_eq, ← regular_iff free known]
    exact ⟨regular_of_groupsRows, groupsRows_of_regular⟩
  · intro name isCharted start
    have count : (snortAlerts located).count (name, start) =
        alerts.countP fun alert => code alert.tuple.src = name ∧ bin time alert.key = start := by
      have kept : charted.contains (name, start).1 = true := List.contains_iff_mem.mpr isCharted
      rw [snortAlerts, List.count_filter (a := (name, start)) kept, List.count, List.countP_map]
      apply List.countP_congr
      intro alert _
      simp [Prod.ext_iff]
    rw [values_of_file order, count]

def sampleAlert (key : Int) : Keyed SnortTuple :=
  { key
    tuple :=
      { sig := ascii "1_2003", priority := 2, message := ascii "Worm", proto := ascii "UDP"
        src := ascii "10.0.0.1", sport := 1052, dst := ascii "10.0.0.2", dport := 1434 } }

theorem page_counts_two_days :
    ∃ rows, script (fun _ => .ok (ascii "AU")) 86400 [sampleAlert 10, sampleAlert 90000] =
        .ok rows ∧ ∃ chartRows, parse (stored rows) = some chartRows ∧
      ((rowsOf chartRows allSeverities (ascii "AU")).filter fun row =>
        row.key = integer 86400).map Row.value = [decimal 1] := by
  have free : ∀ name ∈ allSeverities :: charted,
      ¬ (Es5.realm : Realm Unit).PlainInherits name ∧
        ¬ (Es5.realm : Realm Unit).ArrayInherits name := by
    unfold Realm.PlainInherits Realm.ArrayInherits
    decide
  obtain ⟨rows, run, drawn⟩ := @page_counts Unit Es5.realm unitReading free
    (fun _ => .ok (ascii "AU")) (fun _ => ascii "AU") 86400 [sampleAlert 10, sampleAlert 90000]
    fun _ _ => rfl
  obtain ⟨chartRows, parsed, -, values⟩ := drawn rows (List.Perm.refl rows)
  refine ⟨rows, run, chartRows, parsed, (values (ascii "AU") (by decide) 86400).trans ?_⟩
  decide

end SnortCountryChart

end Packetpig
