/-
The script globe-snort.pig: the alerts of snort by the position of their source,
with the average severity and the number of attacks of each position.
-/

import Packetpig.Detection.SnortRecordReader
import Packetpig.GeoIp.Lookups
import Packetpig.Library.Groups

namespace Packetpig

open Text LookupService

structure GlobeAttacks where
  group : Option Bytes
  average_severity : Rat
  total_attacks : Nat
deriving DecidableEq, Repr

namespace GlobeSnort

open Groups

/-- `AVG` of integers, a `double`. -/
def average (priorities : List Int) : Rat :=
  Rounding.round 53 (Rounding.round 53 priorities.sum / priorities.length)

/-- The first `FOREACH`, with the UDF as a parameter. -/
def latlon (ll : Bytes → Except JavaException (Option Bytes)) (alert : Keyed SnortTuple) :
    Except JavaException (Option Bytes × Int) := do
  return (← ll alert.tuple.src, alert.tuple.priority)

/-- `ORDER latlon BY total_attacks`. -/
def upTo (row row' : GlobeAttacks) : Bool := row.total_attacks ≤ row'.total_attacks

/-- `GROUP`, `FOREACH` and `ORDER`; rows without a position are one group. -/
def summarize (latlon : List (Option Bytes × Int)) : List GlobeAttacks :=
  let rows := (groupBy Prod.fst latlon).map fun grouped =>
    { group := grouped.1
      average_severity := average (grouped.2.map Prod.snd)
      total_attacks := grouped.2.length }
  rows.mergeSort upTo

def script (ll : Bytes → Except JavaException (Option Bytes))
    (snort_alerts : List (Keyed SnortTuple)) : Except JavaException (List GlobeAttacks) := do
  return summarize (← snort_alerts.mapM (latlon ll))

def rowOf (latlon : List (Option Bytes × Int)) (wanted : Option Bytes) : GlobeAttacks :=
  { group := wanted
    average_severity := average ((group Prod.fst latlon wanted).map Prod.snd)
    total_attacks := (group Prod.fst latlon wanted).length }

private theorem rows_eq (latlon : List (Option Bytes × Int)) :
    ((groupBy Prod.fst latlon).map fun grouped => ({
      group := grouped.1
      average_severity := average (grouped.2.map Prod.snd)
      total_attacks := grouped.2.length } : GlobeAttacks)) =
      (latlon.map Prod.fst).dedup.map (rowOf latlon) := by
  rw [groupBy, table, List.map_map]
  rfl

theorem summarize_perm (latlon : List (Option Bytes × Int)) :
    (summarize latlon).Perm ((latlon.map Prod.fst).dedup.map (rowOf latlon)) := by
  unfold summarize
  dsimp only
  rw [rows_eq]
  exact List.mergeSort_perm _ _

theorem summarize_sorted (latlon : List (Option Bytes × Int)) :
    (summarize latlon).Pairwise fun row row' => row.total_attacks ≤ row'.total_attacks := by
  have transitive : ∀ row row' row'', upTo row row' = true → upTo row' row'' = true →
      upTo row row'' = true := by
    intro row row' row'' first second
    exact decide_eq_true ((of_decide_eq_true first).trans (of_decide_eq_true second))
  have total : ∀ row row', (upTo row row' || upTo row' row) = true := by
    intro row row'
    rw [Bool.or_eq_true]
    exact (Nat.le_total _ _).imp decide_eq_true decide_eq_true
  exact (List.pairwise_mergeSort transitive total _).imp of_decide_eq_true

theorem summarize_nodup (latlon : List (Option Bytes × Int)) :
    ((summarize latlon).map GlobeAttacks.group).Nodup := by
  rw [((summarize_perm latlon).map GlobeAttacks.group).nodup_iff, List.map_map]
  change ((latlon.map Prod.fst).dedup.map id).Nodup
  rw [List.map_id]
  exact List.nodup_dedup _

theorem summarize_total (latlon : List (Option Bytes × Int)) :
    ((summarize latlon).map GlobeAttacks.total_attacks).sum = latlon.length := by
  rw [((summarize_perm latlon).map GlobeAttacks.total_attacks).sum_eq, List.map_map]
  exact sum_length_group (List.nodup_dedup _) fun row member =>
    List.mem_dedup.mpr (List.mem_map_of_mem member)

theorem summarize_row {latlon : List (Option Bytes × Int)} {wanted : Option Bytes}
    (occurs : wanted ∈ latlon.map Prod.fst) : rowOf latlon wanted ∈ summarize latlon :=
  (summarize_perm latlon).mem_iff.mpr (List.mem_map_of_mem (List.mem_dedup.mpr occurs))

private theorem mapM_latlon {ll : Bytes → Except JavaException (Option Bytes)}
    {text : Bytes → Option Bytes} (answers : ∀ src, ll src = .ok (text src))
    (alerts : List (Keyed SnortTuple)) :
    alerts.mapM (latlon ll) =
      .ok (alerts.map fun alert => (text alert.tuple.src, alert.tuple.priority)) :=
  mapM_eq_ok fun alert _ => by
    rw [latlon, answers]
    rfl

private theorem group_latlon {κ : Type} [DecidableEq κ] {text : Bytes → Option Bytes}
    {place : Bytes → κ} (apart : ∀ src src', text src = text src' ↔ place src = place src')
    (alerts : List (Keyed SnortTuple)) (src : Bytes) :
    (group Prod.fst (alerts.map fun alert => (text alert.tuple.src, alert.tuple.priority))
        (text src)).map Prod.snd =
      (alerts.filter fun alert => place alert.tuple.src = place src).map
        fun alert => alert.tuple.priority := by
  rw [group, List.filter_map, List.map_map]
  have sameTest : ((fun row : Option Bytes × Int => decide (row.1 = text src)) ∘
      fun alert : Keyed SnortTuple => (text alert.tuple.src, alert.tuple.priority)) =
      fun alert => decide (place alert.tuple.src = place src) := by
    funext alert
    exact decide_eq_decide.mpr (apart _ _)
  rw [sameTest]
  rfl

variable {files : Bytes → Option Bytes} (getByName : Bytes → Option InetAddress)

open Udf in
/-- The rows are the positions of the sources: each alert is counted in one row,
together with the alerts from the same position and no others. -/
theorem script_positions {databaseType : Int}
    (database : RecordDatabase (LocationRecord databaseType) LocationRecord.encode 32)
    (same : editionOf database.type = databaseType)
    (installed : Installed files "GeoLiteCity.dat" database.file) (onEarth : OnEarth database)
    {floatText : Rat → Bytes} (texts : FloatTexts floatText) :
    ∃ cl, LatLon.new files = .ok cl ∧ ∀ alerts : List (Keyed SnortTuple), ∃ rows,
      script (fun src => LatLon.exec getByName cl floatText [src]) alerts = .ok rows ∧
      rows.Pairwise (fun row row' => row.total_attacks ≤ row'.total_attacks) ∧
      (rows.map GlobeAttacks.group).Nodup ∧
      (rows.map GlobeAttacks.total_attacks).sum = alerts.length ∧
      ∀ alert ∈ alerts, ∃ row ∈ rows,
        row.group =
          (position getByName database alert.tuple.src).map (positionText floatText) ∧
        row.total_attacks = alerts.countP (fun other =>
          position getByName database other.tuple.src =
            position getByName database alert.tuple.src) ∧
        row.average_severity = average
          ((alerts.filter fun other => position getByName database other.tuple.src =
            position getByName database alert.tuple.src).map fun other => other.tuple.priority) := by
  have opened : LatLon.new files = .ok database.service := by
    rw [LatLon.new, openDatabase_installed installed, database.new_file]
  refine ⟨_, opened, ?_⟩
  intro alerts
  let text (src : Bytes) := (position getByName database src).map (positionText floatText)
  have answers : ∀ src, LatLon.exec getByName database.service floatText [src] =
      .ok (text src) := LatLon.exec_position getByName database same floatText
  have apart : ∀ src src', text src = text src' ↔
      position getByName database src = position getByName database src' :=
    positionText_eq_iff getByName onEarth texts
  have run : script (fun src => LatLon.exec getByName database.service floatText [src]) alerts =
      .ok (summarize (alerts.map fun alert => (text alert.tuple.src, alert.tuple.priority))) := by
    rw [script, mapM_latlon answers]
    rfl
  refine ⟨_, run, summarize_sorted _, summarize_nodup _, ?_, ?_⟩
  · rw [summarize_total, List.length_map]
  · intro alert member
    have occurs : text alert.tuple.src ∈ (alerts.map fun alert =>
        (text alert.tuple.src, alert.tuple.priority)).map Prod.fst := by
      rw [List.map_map]
      exact List.mem_map_of_mem (f := fun alert => text alert.tuple.src) member
    have priorities := group_latlon apart alerts alert.tuple.src
    have count := congrArg List.length priorities
    rw [List.length_map, List.length_map, ← List.countP_eq_length_filter] at count
    exact ⟨_, summarize_row occurs, rfl, count, congrArg average priorities⟩

def sampleAlert : Keyed SnortTuple :=
  { key := 1322630341
    tuple :=
      { sig := ascii "1_2003", priority := 2, message := ascii "Worm", proto := ascii "UDP"
        src := ascii "10.0.0.1", sport := 1052, dst := ascii "10.0.0.2", dport := 1434 } }

open Udf in
theorem script_sample :
    ∃ cl, LatLon.new (oneFile "data/GeoLiteCity.dat" sampleLocations.file) = .ok cl ∧ ∃ rows,
      script (fun src => LatLon.exec (fun _ => some sampleAddress) cl fractionText [src])
        [sampleAlert, sampleAlert] = .ok rows ∧
      ∃ row ∈ rows, row.total_attacks = 2 := by
  have installed : Installed (oneFile "data/GeoLiteCity.dat" sampleLocations.file)
      "GeoLiteCity.dat" sampleLocations.file := .inl (if_pos (by decide))
  obtain ⟨cl, opened, positions⟩ := script_positions (fun _ => some sampleAddress) sampleLocations
    (by decide) installed sampleLocations_onEarth fractionText_texts
  obtain ⟨rows, run, -, -, -, counted⟩ := positions [sampleAlert, sampleAlert]
  obtain ⟨row, member, -, total, -⟩ := counted sampleAlert List.mem_cons_self
  refine ⟨cl, opened, rows, run, row, member, ?_⟩
  rw [total]
  simp

end GlobeSnort

end Packetpig
