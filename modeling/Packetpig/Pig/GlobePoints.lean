/-
What the globe is given for the stored output of globe-snort.pig.
-/

import Packetpig.Charts.CsvRows
import Packetpig.Charts.Globe
import Packetpig.Library.JavaFloat
import Packetpig.Pig.GlobeSnort

namespace Packetpig.GlobeSnort

open Text Csv Groups

/-- `STORE latlon into … using PigStorage(',')`; a missing position is empty. -/
def columns (doubleText : Rat → Bytes) (row : GlobeAttacks) : List Bytes :=
  [row.group.getD [], doubleText row.average_severity, decimal row.total_attacks]

def stored (doubleText : Rat → Bytes) (rows : List GlobeAttacks) : Bytes :=
  rows.flatMap fun row => [comma].intercalate (columns doubleText row) ++ [lineFeed]

structure Plain (text : Bytes) : Prop where
  unquoted : Unquoted text
  noSpace : space ∉ text
  filled : text ≠ []

def placeText (place : Bytes × Bytes) : Bytes := place.1 ++ ascii " " ++ place.2

def placeOf (ll : Bytes) : Bytes × Bytes :=
  ((ll.splitOn space).getD 0 [], (ll.splitOn space).getD 1 [])

theorem splitOn_placeText {place : Bytes × Bytes} (first : Plain place.1) (second : Plain place.2) :
    (placeText place).splitOn space = [place.1, place.2] := by
  have pieces : ∀ piece ∈ [place.1, place.2], space ∉ piece := by
    simpa using ⟨first.noSpace, second.noSpace⟩
  have text : placeText place = [space].intercalate [place.1, place.2] := by
    rw [placeText, List.intercalate_cons_cons, List.intercalate_singleton]
    rfl
  rw [text, List.splitOn_intercalate space pieces (List.cons_ne_nil _ _)]

theorem placeOf_placeText {place : Bytes × Bytes} (first : Plain place.1)
    (second : Plain place.2) : placeOf (placeText place) = place := by
  rw [placeOf, splitOn_placeText first second]
  rfl

theorem unquoted_placeText {place : Bytes × Bytes} (first : Plain place.1)
    (second : Plain place.2) : Unquoted (placeText place) :=
  (first.unquoted.append ⟨by decide, by decide⟩).append second.unquoted

theorem placeText_ne_nil (place : Bytes × Bytes) : placeText place ≠ [] := by
  rw [placeText, List.append_assoc]
  exact List.append_ne_nil_of_right_ne_nil _ (List.cons_ne_nil _ _)

section Page

variable {doubleText : Rat → Bytes} {parseFloat : Bytes → Option Rat} {file : List GlobeAttacks}

theorem parseRows_stored (plain : ∀ value, Unquoted (doubleText value))
    (groups : ∀ row ∈ file, Unquoted (row.group.getD [])) :
    parseRows (stored doubleText file) = file.map (columns doubleText) := by
  refine parseRows_columns (fun _ => List.cons_ne_nil _ _) fun row member => ?_
  have number := integer_unquoted row.total_attacks
  rw [integer_natCast] at number
  simpa [columns] using ⟨groups row member, plain row.average_severity, number⟩

theorem filter_columns (filled : ∀ row ∈ file, row.group ≠ some []) :
    (file.map (columns doubleText)).filter (fun d => d.headD [] ≠ []) =
      (file.filter fun row => row.group.isSome).map (columns doubleText) := by
  rw [List.filter_map]
  congr 1
  apply List.filter_congr
  intro row member
  have noEmpty := filled row member
  cases group : row.group with
  | none => simp [columns, group]
  | some text =>
      rw [group] at noEmpty
      have nonempty : text ≠ [] := fun empty => noEmpty (empty ▸ rfl)
      simp [columns, group, nonempty]

end Page

theorem filter_isSome {file : List GlobeAttacks} {rowAt : Option Bytes → GlobeAttacks}
    (rows : ∀ row ∈ file, row = rowAt row.group) :
    (file.filter fun row => row.group.isSome) =
      (file.filterMap GlobeAttacks.group).map fun ll => rowAt (some ll) := by
  induction file with
  | nil => rfl
  | cons row file ih =>
      obtain ⟨here, later⟩ := List.forall_mem_cons.mp rows
      cases group : row.group with
      | none =>
          rw [List.filter_cons_of_neg (by simp [group]), List.filterMap_cons_none group, ih later]
      | some ll =>
          rw [List.filter_cons_of_pos (by simp [group]), List.filterMap_cons_some group,
            List.map_cons, ih later, ← group, ← here]

section Points

variable (place : Bytes → Option (Bytes × Bytes)) (alerts : List (Keyed SnortTuple))

def attacksAt (wanted : Bytes × Bytes) : Nat :=
  alerts.countP fun alert => place alert.tuple.src = some wanted

def severityAt (wanted : Bytes × Bytes) : Rat :=
  average ((alerts.filter fun alert => place alert.tuple.src = some wanted).map
    fun alert => alert.tuple.priority)

def attacked (wanted : Bytes × Bytes) : GlobeAttacks :=
  { group := some (placeText wanted), average_severity := severityAt place alerts wanted,
    total_attacks := attacksAt place alerts wanted }

variable {place alerts}

private theorem rowOf_place
    (texts : ∀ alert ∈ alerts, ∀ there ∈ place alert.tuple.src, Plain there.1 ∧ Plain there.2)
    {wanted : Bytes × Bytes} (first : Plain wanted.1) (second : Plain wanted.2) :
    rowOf (alerts.map fun alert => ((place alert.tuple.src).map placeText, alert.tuple.priority))
        (some (placeText wanted)) = attacked place alerts wanted := by
  have rows : (group Prod.fst (alerts.map fun alert =>
        ((place alert.tuple.src).map placeText, alert.tuple.priority))
        (some (placeText wanted))).map Prod.snd =
      (alerts.filter fun alert => place alert.tuple.src = some wanted).map
        fun alert => alert.tuple.priority := by
    rw [group, List.filter_map, List.map_map]
    refine congrArg (List.map _) (List.filter_congr fun alert member => ?_)
    refine decide_eq_decide.mpr ⟨fun same => ?_, fun same => ?_⟩
    · obtain ⟨there, isThere, sameText⟩ := Option.map_eq_some_iff.mp same
      obtain ⟨first', second'⟩ := texts alert member there isThere
      rw [isThere, ← placeOf_placeText first' second', sameText, placeOf_placeText first second]
    · exact congrArg (Option.map placeText) same
  have count := congrArg List.length rows
  rw [List.length_map, List.length_map, ← List.countP_eq_length_filter] at count
  rw [rowOf, rows, count]
  rfl

variable {doubleText : Rat → Bytes} {parseFloat : Bytes → Option Rat}

private theorem pointOf_columns {wanted : Bytes × Bytes} (first : Plain wanted.1)
    (second : Plain wanted.2)
    (average : parseFloat (doubleText (severityAt place alerts wanted)) =
      some (severityAt place alerts wanted))
    (count : parseFloat (decimal (attacksAt place alerts wanted)) =
      some (attacksAt place alerts wanted : Rat)) (most : Rat) :
    Globe.pointOf parseFloat (some most) (columns doubleText (attacked place alerts wanted)) =
      [parseFloat wanted.1, parseFloat wanted.2,
        some (Scales.linear 0 most (attacksAt place alerts wanted)),
        some (Globe.d1range (severityAt place alerts wanted))] := by
  have pieces := splitOn_placeText first second
  simp only [Globe.pointOf, columns, attacked, Option.getD_some, List.headD_cons, pieces, Globe.number,
    List.getElem?_cons_zero, List.getElem?_cons_succ, Option.bind_some, average, count,
    Globe.d2range, Option.map_some]

private theorem points_stored {file : List GlobeAttacks} {places : List (Bytes × Bytes)}
    (plain : ∀ value, Unquoted (doubleText value))
    (groups : ∀ row ∈ file, Unquoted (row.group.getD []) ∧ row.group ≠ some [])
    (filtered : (file.filter fun row => row.group.isSome) = places.map (attacked place alerts))
    (texts : ∀ there ∈ places, Plain there.1 ∧ Plain there.2)
    (averages : ∀ there ∈ places, parseFloat (doubleText (severityAt place alerts there)) =
      some (severityAt place alerts there))
    (counts : ∀ count ≤ alerts.length, parseFloat (decimal count) = some (count : Rat)) :
    ∃ most : Nat, (∀ there ∈ places, attacksAt place alerts there ≤ most) ∧
      (places ≠ [] → ∃ there ∈ places, attacksAt place alerts there = most) ∧
      Globe.points parseFloat (stored doubleText file) = places.flatMap fun there =>
        [parseFloat there.1, parseFloat there.2,
          some (Scales.linear 0 most (attacksAt place alerts there)),
          some (Globe.d1range (severityAt place alerts there))] := by
  have rows : (parseRows (stored doubleText file)).filter (fun d => d.headD [] ≠ []) =
      places.map fun there => columns doubleText (attacked place alerts there) := by
    rw [parseRows_stored plain fun row member => (groups row member).1,
      filter_columns fun row member => (groups row member).2, filtered, List.map_map]
    rfl
  have numbers : places.map ((fun d => Globe.number parseFloat d 2) ∘ fun there =>
      columns doubleText (attacked place alerts there)) =
        (places.map fun there => (attacksAt place alerts there : Rat)).map some := by
    rw [List.map_map]
    exact List.map_congr_left fun there _ => counts _ List.countP_le_length
  rw [Globe.points, rows, List.map_map, numbers, List.flatMap_map]
  by_cases empty : places = []
  · rw [empty]
    exact ⟨0, fun there member => absurd member List.not_mem_nil,
      fun nonempty => absurd rfl nonempty, rfl⟩
  · obtain ⟨_, isTop, top, above⟩ := Scales.exists_max (mt List.map_eq_nil_iff.mp empty)
    obtain ⟨there, member, rfl⟩ := List.mem_map.mp isTop
    refine ⟨attacksAt place alerts there, ?_, fun _ => ⟨there, member, rfl⟩, ?_⟩
    · intro other inPlaces
      have below : (attacksAt place alerts other : Rat) ≤ attacksAt place alerts there :=
        above _ (List.mem_map.mpr ⟨other, inPlaces, rfl⟩)
      exact_mod_cast below
    · rw [top]
      refine List.flatMap_congr fun other inPlaces => ?_
      obtain ⟨first, second⟩ := texts other inPlaces
      exact pointOf_columns first second (averages other inPlaces)
        (counts _ List.countP_le_length) _

/-- The globe has one point for each position that alerts come from: at what
`parseFloat` makes of its texts, with the number of its alerts on a scale up to
the largest one. Alerts without a position count nowhere. -/
theorem page_points {ll : Bytes → Except JavaException (Option Bytes)}
    (answers : ∀ alert ∈ alerts,
      ll alert.tuple.src = .ok ((place alert.tuple.src).map placeText))
    (texts : ∀ alert ∈ alerts, ∀ there ∈ place alert.tuple.src, Plain there.1 ∧ Plain there.2)
    (plain : ∀ value, Unquoted (doubleText value))
    (averages : ∀ alert ∈ alerts, ∀ there ∈ place alert.tuple.src,
      parseFloat (doubleText (severityAt place alerts there)) =
        some (severityAt place alerts there))
    (counts : ∀ count ≤ alerts.length, parseFloat (decimal count) = some (count : Rat)) :
    ∃ rows, script ll alerts = .ok rows ∧ ∀ file : List GlobeAttacks, file.Perm rows →
      ∃ (places : List (Bytes × Bytes)) (most : Nat), places.Nodup ∧
        (∀ there, there ∈ places ↔ ∃ alert ∈ alerts, place alert.tuple.src = some there) ∧
        (∀ there ∈ places, attacksAt place alerts there ≤ most) ∧
        (places ≠ [] → ∃ there ∈ places, attacksAt place alerts there = most) ∧
        Globe.points parseFloat (stored doubleText file) = places.flatMap fun there =>
          [parseFloat there.1, parseFloat there.2,
            some (Scales.linear 0 most (attacksAt place alerts there)),
            some (Globe.d1range (severityAt place alerts there))] := by
  let latlons := alerts.map fun alert =>
    ((place alert.tuple.src).map placeText, alert.tuple.priority)
  have run : script ll alerts = .ok (summarize latlons) := by
    have each : alerts.mapM (latlon ll) = .ok latlons := mapM_eq_ok fun alert member => by
      rw [latlon, answers alert member]
      rfl
    rw [script, each]
    rfl
  refine ⟨_, run, ?_⟩
  intro file order
  have order' := order.trans (summarize_perm latlons)
  have rows : ∀ row ∈ file, row = rowOf latlons row.group := by
    intro row member
    obtain ⟨ll, -, rfl⟩ := List.mem_map.mp (order'.mem_iff.mp member)
    rfl
  let known := file.filterMap GlobeAttacks.group
  have once : known.Nodup := by
    have groups : (file.map GlobeAttacks.group).Nodup :=
      ((order.map _).nodup_iff).mpr (summarize_nodup latlons)
    have distinct := groups.filterMap (f := id) fun _ _ text isFirst isSecond =>
      (Option.mem_def.mp isFirst).trans (Option.mem_def.mp isSecond).symm
    rwa [List.filterMap_map] at distinct
  have isKnown {text : Bytes} :
      text ∈ known ↔ ∃ alert ∈ alerts, (place alert.tuple.src).map placeText = some text := by
    have occurs : some text ∈ (summarize latlons).map GlobeAttacks.group ↔
        some text ∈ latlons.map Prod.fst := by
      rw [((summarize_perm latlons).map GlobeAttacks.group).mem_iff, List.map_map]
      change some text ∈ (latlons.map Prod.fst).dedup.map id ↔ _
      rw [List.map_id, List.mem_dedup]
    rw [List.mem_filterMap, ← List.mem_map, (order.map _).mem_iff, occurs, List.map_map,
      List.mem_map]
    rfl
  have back : ∀ text ∈ known, placeText (placeOf text) = text ∧ Plain (placeOf text).1 ∧
      Plain (placeOf text).2 ∧ ∃ alert ∈ alerts, place alert.tuple.src = some (placeOf text) := by
    intro text member
    obtain ⟨alert, inAlerts, isText⟩ := isKnown.mp member
    obtain ⟨there, isThere, rfl⟩ := Option.map_eq_some_iff.mp isText
    obtain ⟨first, second⟩ := texts alert inAlerts there isThere
    rw [placeOf_placeText first second]
    exact ⟨rfl, first, second, alert, inAlerts, isThere⟩
  have filtered : (file.filter fun row => row.group.isSome) =
      (known.map placeOf).map (attacked place alerts) := by
    rw [filter_isSome rows, List.map_map]
    refine List.map_congr_left fun text member => ?_
    obtain ⟨same, first, second, -⟩ := back text member
    rw [Function.comp_apply, ← rowOf_place texts first second, same]
  have groups : ∀ row ∈ file, Unquoted (row.group.getD []) ∧ row.group ≠ some [] := by
    intro row member
    cases group : row.group with
    | none => exact ⟨unquoted_nil, (Option.some_ne_none _).symm⟩
    | some text =>
        obtain ⟨same, first, second, -⟩ :=
          back text (List.mem_filterMap.mpr ⟨row, member, group⟩)
        rw [← same]
        exact ⟨unquoted_placeText first second,
          fun empty => placeText_ne_nil _ (Option.some.inj empty)⟩
  have places : ∀ there ∈ known.map placeOf, (Plain there.1 ∧ Plain there.2) ∧
      ∃ alert ∈ alerts, place alert.tuple.src = some there := by
    intro there member
    obtain ⟨text, inKnown, rfl⟩ := List.mem_map.mp member
    obtain ⟨-, first, second, origin⟩ := back text inKnown
    exact ⟨⟨first, second⟩, origin⟩
  obtain ⟨most, above, reached, points⟩ := points_stored plain groups filtered
    (fun there member => (places there member).1)
    (fun there member => by
      obtain ⟨-, alert, inAlerts, isThere⟩ := places there member
      exact averages alert inAlerts there isThere) counts
  refine ⟨known.map placeOf, most, ?_, fun there => ⟨fun member => (places there member).2, ?_⟩,
    above, reached, points⟩
  · refine once.map_on fun text member text' member' same => ?_
    rw [← (back text member).1, same, (back text' member').1]
  · rintro ⟨alert, inAlerts, isThere⟩
    obtain ⟨first, second⟩ := texts alert inAlerts there isThere
    rw [← placeOf_placeText first second]
    exact List.mem_map_of_mem (isKnown.mpr ⟨alert, inAlerts, by rw [isThere]; rfl⟩)

end Points

def samplePlace (src : Bytes) : Option (Bytes × Bytes) :=
  if src = ascii "10.0.0.1" then some (ascii "-33.86", ascii "151.2") else none

def sampleAttacks : List (Keyed SnortTuple) :=
  [sampleAlert, sampleAlert,
    { sampleAlert with tuple := { sampleAlert.tuple with src := ascii "10.0.0.2" } }]

private theorem sample_severity :
    severityAt samplePlace sampleAttacks (ascii "-33.86", ascii "151.2") = 2 := by decide +kernel

private theorem sample_plain (src : Bytes) :
    ∀ there ∈ samplePlace src, there = (ascii "-33.86", ascii "151.2") := by
  unfold samplePlace
  split
  · exact fun there member => (Option.some.inj member).symm
  · exact fun there member => absurd member (Option.not_mem_none there)

/-- The alert without a position is not one of the two. -/
theorem page_points_sydney :
    ∃ rows, script (fun src => .ok ((samplePlace src).map placeText)) sampleAttacks = .ok rows ∧
      ∃ places : List (Bytes × Bytes), (∀ there, there ∈ places ↔
          ∃ alert ∈ sampleAttacks, samplePlace alert.tuple.src = some there) ∧
        ∃ most : Nat, Globe.points JavaText.parseDouble (stored (fun _ => ascii "2.0") rows) =
          places.flatMap fun there =>
            [JavaText.parseDouble there.1, JavaText.parseDouble there.2,
              some (Scales.linear 0 most (attacksAt samplePlace sampleAttacks there)),
              some (Globe.d1range (severityAt samplePlace sampleAttacks there))] := by
  have plain : Plain (ascii "-33.86") ∧ Plain (ascii "151.2") :=
    ⟨⟨⟨by decide, by decide⟩, by decide, by decide⟩, ⟨by decide, by decide⟩, by decide, by decide⟩
  obtain ⟨rows, run, drawn⟩ := @page_points samplePlace sampleAttacks
    (fun _ => ascii "2.0") JavaText.parseDouble
    (fun src => .ok ((samplePlace src).map placeText)) (fun _ _ => rfl)
    (fun alert _ there member => by
      rw [sample_plain alert.tuple.src there member]
      exact plain)
    (fun _ => ⟨by decide, by decide⟩)
    (fun alert _ there member => by
      rw [sample_plain alert.tuple.src there member, sample_severity]
      decide +kernel)
    (by decide +kernel)
  obtain ⟨places, most, -, members, -, -, points⟩ := drawn rows (List.Perm.refl rows)
  exact ⟨rows, run, places, members, most, points⟩

end Packetpig.GlobeSnort
