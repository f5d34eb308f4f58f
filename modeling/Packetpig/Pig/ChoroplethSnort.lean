/-
The script choropleth-snort.pig and the page that draws its output: the average
priority of the alerts from each country.
-/

import Packetpig.Charts.CsvRows
import Packetpig.Charts.WorldMap
import Packetpig.Library.JsHeap
import Packetpig.Pig.GlobeSnort

namespace Packetpig

open Text Csv Dictionary Js

structure CountrySeverity where
  group : Bytes
  average_severity : Rat
deriving DecidableEq, Repr

namespace ChoroplethSnort

open Groups
open GlobeSnort (average)

/-- The first `FOREACH`, with the UDF as a parameter. -/
def locate (country : Bytes → Except JavaException Bytes) (alert : Keyed SnortTuple) :
    Except JavaException (Bytes × Int) := do
  return (← country alert.tuple.src, alert.tuple.priority)

/-- `GROUP` and the second `FOREACH`. -/
def summarize (countries : List (Bytes × Int)) : List CountrySeverity :=
  (groupBy Prod.fst countries).map fun grouped =>
    { group := grouped.1, average_severity := average (grouped.2.map Prod.snd) }

def script (country : Bytes → Except JavaException Bytes)
    (snort_alerts : List (Keyed SnortTuple)) : Except JavaException (List CountrySeverity) := do
  return summarize (← snort_alerts.mapM (locate country))

/-- `STORE countries … using PigStorage(',')`. -/
def stored (doubleText : Rat → Bytes) (rows : List CountrySeverity) : Bytes :=
  rows.flatMap fun row =>
    [comma].intercalate [row.group, doubleText row.average_severity] ++ [lineFeed]

/-- What the script has for a code, and 0 for a code without alerts. -/
def severity (countries : List (Bytes × Int)) (code : Bytes) : Rat :=
  average ((group Prod.fst countries code).map Prod.snd)

theorem average_nonneg {priorities : List Int} (graded : ∀ priority ∈ priorities, 0 ≤ priority) :
    0 ≤ average priorities := by
  have total : (0 : Rat) ≤ priorities.sum := by exact_mod_cast List.sum_nonneg graded
  have rounded := Rounding.round_nonneg 53 total
  exact Rounding.round_nonneg 53 (by positivity)

theorem average_pos_iff {priorities : List Int} (graded : ∀ priority ∈ priorities, 0 ≤ priority) :
    0 < average priorities ↔ ∃ priority ∈ priorities, 0 < priority := by
  constructor
  · intro positive
    by_contra none
    simp only [not_exists, not_and, not_lt] at none
    have zero : priorities.sum = 0 := List.sum_eq_zero fun priority member =>
      le_antisymm (none priority member) (graded priority member)
    rw [average, zero, Int.cast_zero, Rounding.round_zero, zero_div, Rounding.round_zero] at positive
    exact lt_irrefl 0 positive
  · rintro ⟨priority, member, positive⟩
    have total : (0 : Rat) < priorities.sum := by
      exact_mod_cast positive.trans_le (List.single_le_sum graded priority member)
    have several : (0 : Rat) < priorities.length := by
      exact_mod_cast List.length_pos_of_mem member
    exact Rounding.round_pos (by decide)
      (div_pos (Rounding.round_pos (by decide) total) several)

theorem summarize_eq (countries : List (Bytes × Int)) :
    summarize countries = (countries.map Prod.fst).dedup.map fun code =>
      { group := code, average_severity := severity countries code } := by
  rw [summarize, groupBy, table, List.map_map]
  rfl

theorem summarize_nodup (countries : List (Bytes × Int)) :
    ((summarize countries).map CountrySeverity.group).Nodup := by
  rw [summarize_eq, List.map_map]
  change ((countries.map Prod.fst).dedup.map id).Nodup
  rw [List.map_id]
  exact List.nodup_dedup _

theorem mem_summarize {countries : List (Bytes × Int)} {row : CountrySeverity} :
    row ∈ summarize countries ↔ row.group ∈ countries.map Prod.fst ∧
      row.average_severity = severity countries row.group := by
  rw [summarize_eq, List.mem_map]
  constructor
  · rintro ⟨code, occurs, rfl⟩
    exact ⟨List.mem_dedup.mp occurs, rfl⟩
  · rintro ⟨occurs, same⟩
    exact ⟨row.group, List.mem_dedup.mpr occurs, by rw [← same]⟩

theorem severity_of_absent {countries : List (Bytes × Int)} {code : Bytes}
    (absent : code ∉ countries.map Prod.fst) : severity countries code = 0 := by
  have none : group Prod.fst countries code = [] := by
    rw [group, List.filter_eq_nil_iff]
    intro row member same
    exact absent (of_decide_eq_true same ▸ List.mem_map_of_mem member)
  rw [severity, none, average]
  simp

section Page

variable {ν : Type} {realm : Realm ν} {doubleText : Rat → Bytes}
  {parseFloat : Bytes → Option Rat}

theorem parse_stored {rows : List CountrySeverity} (once : (rows.map CountrySeverity.group).Nodup)
    (codes : ∀ row ∈ rows, Unquoted row.group ∧ ¬ realm.PlainInherits row.group)
    (plain : ∀ value, Unquoted (doubleText value))
    (reads : ∀ row ∈ rows,
      parseFloat (doubleText row.average_severity) = some row.average_severity) :
    WorldMap.parse realm parseFloat (stored doubleText rows) =
      let rejigged := rows.map fun row => (row.group, some row.average_severity)
      .ok { rejigged, max := Scales.max (rejigged.map Prod.snd) } := by
  have read : parseRows (stored doubleText rows) =
      rows.map fun row => [row.group, doubleText row.average_severity] := by
    refine parseRows_columns (fun _ => List.cons_ne_nil _ _) fun row member => ?_
    simpa using ⟨(codes row member).1, plain row.average_severity⟩
  have entries : (rows.map fun row => [row.group, doubleText row.average_severity]).map
      (WorldMap.entryOf parseFloat) =
        rows.map fun row => (row.group, some row.average_severity) := by
    rw [List.map_map]
    apply List.map_congr_left
    intro row member
    exact congrArg (Prod.mk row.group) (reads row member)
  have free : ∀ entry ∈ rows.map fun row => (row.group, some row.average_severity),
      ¬ realm.PlainInherits entry.1 := by
    intro entry member
    obtain ⟨row, inRows, rfl⟩ := List.mem_map.mp member
    exact (codes row inRows).2
  have kept : ofAssignments (rows.map fun row => (row.group, some row.average_severity)) =
      rows.map fun row => (row.group, some row.average_severity) := by
    apply ofAssignments_of_nodup
    rw [List.map_map]
    exact once
  rw [WorldMap.parse, read, entries, PlainObject.fill_of_free free, kept]
  rfl

variable {countries : List (Bytes × Int)} {page : WorldMap.Page} {file : List CountrySeverity}

theorem get_of_file (order : file.Perm (summarize countries))
    (rejigged : page.rejigged = file.map fun row => (row.group, some row.average_severity))
    (code : Bytes) : get page.rejigged code =
      if code ∈ countries.map Prod.fst then some (some (severity countries code)) else none := by
  have codes : (page.rejigged.map Prod.fst).Perm
      ((summarize countries).map CountrySeverity.group) := by
    rw [rejigged, List.map_map]
    exact order.map _
  split
  · rename_i occurs
    have once := codes.nodup_iff.mpr (summarize_nodup countries)
    have member : (code, some (severity countries code)) ∈ page.rejigged := by
      rw [rejigged]
      exact List.mem_map_of_mem (f := fun row : CountrySeverity =>
        (row.group, some row.average_severity)) (order.mem_iff.mpr
          ((@mem_summarize countries ⟨code, severity countries code⟩).mpr ⟨occurs, rfl⟩))
    exact get_of_mem once member
  · rename_i absent
    apply get_eq_none
    intro there
    obtain ⟨row, member, rfl⟩ := List.mem_map.mp (codes.mem_iff.mp there)
    exact absent (mem_summarize.mp member).1

theorem col_of_file (textOf : Property ν → Bytes) (order : file.Perm (summarize countries))
    (rejigged : page.rejigged = file.map fun row => (row.group, some row.average_severity))
    {codes : List (Bytes × Bytes)} {name wanted : Bytes} (named : get codes name = some wanted)
    (freeName : ¬ realm.PlainInherits name) (freeCode : ¬ realm.PlainInherits wanted) :
    WorldMap.col realm textOf codes page name =
      .ok (if wanted = [] ∨ severity countries wanted = 0 then .unknown
        else .hsl (some (WorldMap.hue (severity countries wanted) (page.max.getD 0)))) := by
  have found := get_of_file order rejigged wanted
  rw [WorldMap.col, PlainObject.find_of_free freeName, named]
  dsimp only
  by_cases empty : wanted = []
  · rw [if_pos empty, if_pos (.inl empty)]
  · rw [if_neg empty, WorldMap.colOfCode, PlainObject.find_of_free freeCode]
    by_cases occurs : wanted ∈ countries.map Prod.fst
    · rw [if_pos occurs] at found
      rw [found]
      simp only [empty, false_or]
      exact (apply_ite Except.ok _ _ _).symm
    · rw [if_neg occurs] at found
      rw [found, if_pos (.inr (severity_of_absent occurs))]

theorem max_of_file (order : file.Perm (summarize countries)) (nonempty : countries ≠ [])
    (rejigged : page.rejigged = file.map fun row => (row.group, some row.average_severity))
    (max : page.max = Scales.max (page.rejigged.map Prod.snd)) :
    ∃ worst ∈ countries.map Prod.fst, page.max = some (severity countries worst) ∧
      ∀ code ∈ countries.map Prod.fst, severity countries code ≤ severity countries worst := by
  have averages : page.rejigged.map Prod.snd =
      (file.map CountrySeverity.average_severity).map some := by
    rw [rejigged, List.map_map, List.map_map]
    rfl
  obtain ⟨first, rest, rfl⟩ := List.exists_cons_of_ne_nil nonempty
  have rowOf : ∀ code ∈ (first :: rest).map Prod.fst,
      severity (first :: rest) code ∈ file.map CountrySeverity.average_severity := by
    intro code occurs
    have inRows := (@mem_summarize (first :: rest) ⟨code, severity (first :: rest) code⟩).mpr
      ⟨occurs, rfl⟩
    exact List.mem_map_of_mem (f := CountrySeverity.average_severity) (order.mem_iff.mpr inRows)
  obtain ⟨top, member, isMax, above⟩ :=
    Scales.exists_max (List.ne_nil_of_mem (rowOf first.1 List.mem_cons_self))
  obtain ⟨row, inFile, rfl⟩ := List.mem_map.mp member
  obtain ⟨occurs, same⟩ := mem_summarize.mp (order.mem_iff.mp inFile)
  refine ⟨row.group, occurs, ?_, ?_⟩
  · rw [max, averages, isMax, same]
  · intro code inCodes
    rw [← same]
    exact above _ (rowOf code inCodes)

end Page

/-! ### The colours -/

/-- The average priority of the alerts whose source has this code. -/
def severityOf (code : Bytes → Bytes) (alerts : List (Keyed SnortTuple)) (wanted : Bytes) : Rat :=
  average ((alerts.filter fun alert => code alert.tuple.src = wanted).map
    fun alert => alert.tuple.priority)

private theorem severity_map (code : Bytes → Bytes) (alerts : List (Keyed SnortTuple))
    (wanted : Bytes) :
    severity (alerts.map fun alert => (code alert.tuple.src, alert.tuple.priority)) wanted =
      severityOf code alerts wanted := by
  rw [severity, group, List.filter_map, List.map_map]
  rfl

private theorem severityOf_ne_zero {code : Bytes → Bytes} {alerts : List (Keyed SnortTuple)}
    (graded : ∀ alert ∈ alerts, 0 ≤ alert.tuple.priority) (wanted : Bytes) :
    severityOf code alerts wanted ≠ 0 ↔
      ∃ alert ∈ alerts, code alert.tuple.src = wanted ∧ 0 < alert.tuple.priority := by
  have graded' : ∀ priority ∈ (alerts.filter fun alert => code alert.tuple.src = wanted).map
      fun alert => alert.tuple.priority, 0 ≤ priority := by
    intro priority member
    obtain ⟨alert, inAlerts, rfl⟩ := List.mem_map.mp member
    exact graded alert (List.mem_filter.mp inAlerts).1
  rw [severityOf, ← (average_nonneg graded').lt_iff_ne', average_pos_iff graded']
  simp only [List.mem_map, List.mem_filter, decide_eq_true_eq]
  constructor
  · rintro ⟨_, ⟨alert, ⟨inAlerts, same⟩, rfl⟩, positive⟩
    exact ⟨alert, inAlerts, same, positive⟩
  · rintro ⟨alert, inAlerts, same, positive⟩
    exact ⟨_, ⟨alert, ⟨inAlerts, same⟩, rfl⟩, positive⟩

/-- The colour of a country when the output is dropped on the page. -/
def drawn {ν : Type} (realm : Realm ν) (textOf : Property ν → Bytes)
    (codeToName : List (Bytes × Bytes)) (parseFloat : Bytes → Option Rat)
    (doubleText : Rat → Bytes) (file : List CountrySeverity) (name : Bytes) :
    Except Js.Exception WorldMap.Fill := do
  let nameToCode ← WorldMap.nameToCode realm codeToName
  let page ← WorldMap.parse realm parseFloat (stored doubleText file)
  WorldMap.col realm textOf nameToCode page name

/-- The last of the codes that have this name. -/
def codeOf (codeToName : List (Bytes × Bytes)) (name : Bytes) : Option Bytes :=
  get (ofAssignments (codeToName.map Prod.swap)) name

/-- Neither the names nor the codes are properties of every object. -/
def FreeNames {ν : Type} (realm : Realm ν) (codeToName : List (Bytes × Bytes)) : Prop :=
  ∀ entry ∈ codeToName, ¬ realm.PlainInherits entry.1 ∧ ¬ realm.PlainInherits entry.2

section FreeNames

variable {ν : Type} {realm : Realm ν} {codeToName : List (Bytes × Bytes)}

private theorem nameToCode_of_free (free : FreeNames realm codeToName) :
    WorldMap.nameToCode realm codeToName = .ok (ofAssignments (codeToName.map Prod.swap)) := by
  apply PlainObject.fill_of_free
  intro entry member
  obtain ⟨original, inNames, rfl⟩ := List.mem_map.mp member
  exact (free original inNames).2

private theorem codeOf_free (free : FreeNames realm codeToName) {name wanted : Bytes}
    (named : codeOf codeToName name = some wanted) : ¬ realm.PlainInherits wanted := by
  obtain ⟨original, inNames, same⟩ := List.mem_map.mp
    (ofAssignments_subset _ (mem_of_get named))
  cases same
  exact (free original inNames).1

end FreeNames

/-- The page colours the countries that have an alert whose priority is not 0,
by their averages and the largest average there is, of whatever code. -/
theorem page_colours {ν : Type} (realm : Realm ν) (textOf : Property ν → Bytes)
    {codeToName : List (Bytes × Bytes)} (freeNames : FreeNames realm codeToName)
    {doubleText : Rat → Bytes} {parseFloat : Bytes → Option Rat}
    (plain : ∀ value, Unquoted (doubleText value))
    {country : Bytes → Except JavaException Bytes} {code : Bytes → Bytes}
    (alerts : List (Keyed SnortTuple))
    (reads : ∀ alert ∈ alerts,
      parseFloat (doubleText (severityOf code alerts (code alert.tuple.src))) =
        some (severityOf code alerts (code alert.tuple.src)))
    (answers : ∀ alert ∈ alerts, country alert.tuple.src = .ok (code alert.tuple.src))
    (codes : ∀ alert ∈ alerts, Unquoted (code alert.tuple.src) ∧
      ¬ realm.PlainInherits (code alert.tuple.src))
    (graded : ∀ alert ∈ alerts, 0 ≤ alert.tuple.priority) :
    ∃ rows, script country alerts = .ok rows ∧ ∀ file : List CountrySeverity, file.Perm rows →
      ∀ name, ¬ realm.PlainInherits name →
        ∃ fill, drawn realm textOf codeToName parseFloat doubleText file name = .ok fill ∧
          (fill ≠ .unknown ↔ ∃ wanted, codeOf codeToName name = some wanted ∧ wanted ≠ [] ∧
            ∃ alert ∈ alerts, code alert.tuple.src = wanted ∧ 0 < alert.tuple.priority) ∧
          ∀ hue, fill = .hsl hue → ∃ wanted, ∃ worst ∈ alerts,
            codeOf codeToName name = some wanted ∧
            (∀ alert ∈ alerts, severityOf code alerts (code alert.tuple.src) ≤
              severityOf code alerts (code worst.tuple.src)) ∧
            hue = some (WorldMap.hue (severityOf code alerts wanted)
              (severityOf code alerts (code worst.tuple.src))) := by
  let countries := alerts.map fun alert => (code alert.tuple.src, alert.tuple.priority)
  have run : script country alerts = .ok (summarize countries) := by
    have each : alerts.mapM (locate country) = .ok countries := mapM_eq_ok fun alert member => by
      rw [locate, answers alert member]
      rfl
    rw [script, each]
    rfl
  have occurs {wanted : Bytes} :
      wanted ∈ countries.map Prod.fst ↔ ∃ alert ∈ alerts, code alert.tuple.src = wanted := by
    rw [List.map_map]
    exact List.mem_map
  refine ⟨_, run, ?_⟩
  intro file order name freeName
  let rejigged := file.map fun row => (row.group, some row.average_severity)
  let page : WorldMap.Page := { rejigged, max := Scales.max (rejigged.map Prod.snd) }
  have isRejigged : page.rejigged = file.map fun row => (row.group, some row.average_severity) :=
    rfl
  have parsed : WorldMap.parse realm parseFloat (stored doubleText file) = .ok page := by
    refine parse_stored ((order.map _).nodup_iff.mpr (summarize_nodup countries)) ?_ plain ?_
    · intro row member
      obtain ⟨alert, inAlerts, same⟩ :=
        occurs.mp (mem_summarize.mp (order.mem_iff.mp member)).1
      exact same ▸ codes alert inAlerts
    · intro row member
      obtain ⟨isCode, same⟩ := mem_summarize.mp (order.mem_iff.mp member)
      obtain ⟨alert, inAlerts, isGroup⟩ := occurs.mp isCode
      rw [same, severity_map, ← isGroup]
      exact reads alert inAlerts
  have onPage : drawn realm textOf codeToName parseFloat doubleText file name =
      WorldMap.col realm textOf (ofAssignments (codeToName.map Prod.swap)) page name := by
    rw [drawn, nameToCode_of_free freeNames, parsed]
    rfl
  cases named : codeOf codeToName name with
  | none =>
      refine ⟨.unknown, ?_, by simp, fun hue same => by cases same⟩
      unfold codeOf at named
      rw [onPage, WorldMap.col, PlainObject.find_of_free freeName, named]
  | some wanted =>
      have colour := col_of_file textOf order isRejigged named freeName
        (codeOf_free freeNames named)
      have coloured := @severityOf_ne_zero code alerts graded wanted
      rw [severity_map code alerts wanted] at colour
      refine ⟨_, onPage.trans colour, ?_, ?_⟩
      · by_cases unknown : wanted = [] ∨ severityOf code alerts wanted = 0
        · rw [if_pos unknown]
          refine iff_of_false (fun different => different rfl) ?_
          rintro ⟨_, same, filled, alarming⟩
          cases same
          exact unknown.elim filled (coloured.mpr alarming)
        · rw [if_neg unknown]
          obtain ⟨filled, notZero⟩ := not_or.mp unknown
          exact iff_of_true (fun same => by cases same)
            ⟨wanted, rfl, filled, coloured.mp notZero⟩
      · intro hue isHue
        by_cases unknown : wanted = [] ∨ severityOf code alerts wanted = 0
        · rw [if_pos unknown] at isHue
          cases isHue
        · rw [if_neg unknown] at isHue
          obtain ⟨alert, inAlerts, -, -⟩ := coloured.mp (not_or.mp unknown).2
          have nonempty : countries ≠ [] := List.ne_nil_of_mem (List.mem_map_of_mem inAlerts)
          obtain ⟨_, isWorst, top, above⟩ := max_of_file order nonempty isRejigged rfl
          obtain ⟨worst, inAlerts', rfl⟩ := occurs.mp isWorst
          refine ⟨wanted, worst, inAlerts', rfl, ?_, ?_⟩
          · intro other member
            rw [← severity_map, ← severity_map]
            exact above _ (occurs.mpr ⟨other, member, rfl⟩)
          · cases isHue
            rw [top, ← severity_map code alerts (code worst.tuple.src)]
            rfl

def sampleAlert (src : Bytes) (priority : Int) : Keyed SnortTuple :=
  { key := 1322630341
    tuple :=
      { sig := ascii "1_2003", priority, message := ascii "Worm", proto := ascii "UDP"
        src, sport := 1052, dst := ascii "10.0.0.9", dport := 1434 } }

def sampleCode (src : Bytes) : Bytes :=
  if src = ascii "10.0.0.1" then ascii "AU" else ascii "--"

def sampleAlerts : List (Keyed SnortTuple) :=
  [sampleAlert (ascii "10.0.0.1") 2, sampleAlert (ascii "10.0.0.2") 3]

def sampleNames : List (Bytes × Bytes) :=
  [(ascii "AU", ascii "Australia"), (ascii "NZ", ascii "New Zealand")]

def sampleText (value : Rat) : Bytes := if value = 3 then ascii "3.0" else ascii "2.0"

def sampleNumber (text : Bytes) : Option Rat := if text = ascii "3.0" then some 3 else some 2

private theorem sampleText_unquoted (value : Rat) : Unquoted (sampleText value) := by
  unfold sampleText
  split
  · exact ⟨by decide, by decide⟩
  · exact ⟨by decide, by decide⟩

private theorem sample_severity : ∀ alert ∈ sampleAlerts,
    severityOf sampleCode sampleAlerts (sampleCode alert.tuple.src) = alert.tuple.priority := by
  decide +kernel

private theorem sampleNumber_text : ∀ alert ∈ sampleAlerts,
    sampleNumber (sampleText (severityOf sampleCode sampleAlerts (sampleCode alert.tuple.src))) =
      some (severityOf sampleCode sampleAlerts (sampleCode alert.tuple.src)) := by
  intro alert member
  rw [sample_severity alert member]
  revert alert
  decide

private theorem sampleNames_free : FreeNames (Es5.realm : Realm Unit) sampleNames := by
  unfold FreeNames Realm.PlainInherits
  decide

private theorem sampleCodes_free : ∀ alert ∈ sampleAlerts,
    Unquoted (sampleCode alert.tuple.src) ∧
      ¬ (Es5.realm : Realm Unit).PlainInherits (sampleCode alert.tuple.src) := by
  unfold Unquoted Realm.PlainInherits
  decide

/-- The alert from nowhere is worse than that from Australia, which is not red then. -/
theorem page_colours_unknown_source :
    ∃ rows, script (fun src => .ok (sampleCode src)) sampleAlerts = .ok rows ∧
      drawn (Es5.realm : Realm Unit) (fun _ => []) sampleNames sampleNumber sampleText rows
        (ascii "Australia") = .ok (.hsl (some (WorldMap.hue 2 3))) := by
  obtain ⟨rows, run, colours⟩ := @page_colours Unit Es5.realm (fun _ => [])
    sampleNames sampleNames_free sampleText sampleNumber sampleText_unquoted
    (fun src => .ok (sampleCode src)) sampleCode sampleAlerts sampleNumber_text (fun _ _ => rfl)
    sampleCodes_free (by decide)
  have freeName : ¬ (Es5.realm : Realm Unit).PlainInherits (ascii "Australia") := by
    unfold Realm.PlainInherits
    decide
  obtain ⟨fill, isFill, isDrawn, scaled⟩ :=
    colours rows (List.Perm.refl rows) (ascii "Australia") freeName
  have named : codeOf sampleNames (ascii "Australia") = some (ascii "AU") := by decide
  have australia : severityOf sampleCode sampleAlerts (ascii "AU") = 2 := by decide +kernel
  have alertFirst : ∃ alert ∈ sampleAlerts, sampleCode alert.tuple.src = ascii "AU" ∧
      0 < alert.tuple.priority := ⟨_, List.mem_cons_self, by decide, by decide⟩
  have known := isDrawn.mpr ⟨_, named, by decide, alertFirst⟩
  cases fill with
  | unknown => exact absurd rfl known
  | hsl hue =>
      obtain ⟨wanted, worst, inAlerts, named', above, same⟩ := scaled hue rfl
      cases named.symm.trans named'
      have atLeast := above _ (List.mem_cons_of_mem _ List.mem_cons_self)
      rw [sample_severity worst inAlerts, sample_severity _ (List.mem_cons_of_mem _
        List.mem_cons_self)] at atLeast
      rw [sample_severity worst inAlerts, australia] at same
      refine ⟨rows, run, ?_⟩
      rw [isFill, same]
      rcases List.mem_pair.mp inAlerts with rfl | rfl
      · exact absurd atLeast (by decide)
      · rfl

end ChoroplethSnort

end Packetpig
