/-
On regular rows every step of `create` succeeds and the rows end up grouped,
so the rows that are grouped are the regular ones.
-/

import Packetpig.Charts.SeriesGrid

namespace Packetpig.MultipleTimeSeries

open Text Js Realm

variable {ν : Type} {realm : Realm ν} {reading : Reading ν}

private theorem eraseDups_concat (names : List Bytes) (name : Bytes) :
    (names ++ [name]).eraseDups =
      if name ∈ names.eraseDups then names.eraseDups else names.eraseDups ++ [name] := by
  rw [List.eraseDups_append]
  by_cases known : name ∈ names.eraseDups
  · have member : name ∈ names := List.mem_eraseDups.mp known
    simp [List.removeAll, member]
  · have absent : name ∉ names := fun member => known (List.mem_eraseDups.mpr member)
    simp [List.removeAll, absent, List.eraseDups_cons]

private theorem rowsOf_concat_self (rows : List Row) (row : Row) :
    rowsOf (rows ++ [row]) row.filter row.category =
      rowsOf rows row.filter row.category ++ [row] := by
  simp [rowsOf]

private theorem rowsOf_concat_of_ne (rows : List Row) {row : Row} {filter category : Bytes}
    (different : ¬ (filter = row.filter ∧ category = row.category)) :
    rowsOf (rows ++ [row]) filter category = rowsOf rows filter category := by
  have other : ¬ (row.filter = filter ∧ row.category = category) :=
    fun both => different ⟨both.1.symm, both.2.symm⟩
  simp [rowsOf, other]

theorem points_length (reading : Reading ν) (type : ChartType) (rows : List Row) :
    (points reading type rows).length = rows.length :=
  List.length_mapIdx

private theorem points_concat (reading : Reading ν) (type : ChartType) (rows : List Row)
    (row : Row) :
    points reading type (rows ++ [row]) =
      points reading type rows ++
        [point (keyOf reading type rows.length row) (.host (reading.parseFloat row.value))] :=
  List.mapIdx_concat

/-! ### The loop -/

def contentsOf (reading : Reading ν) (type : ChartType) (rows : List Row)
    (filter category : Bytes) : List (Value ν) :=
  points reading type (rowsOf rows filter category)

structure Running (realm : Realm ν) (reading : Reading ν) (type : ChartType) (done : List Row)
    (chart : Chart ν) (layout : Layout) : Prop where
  grid : Grid realm chart.heap layout (contentsOf reading type done)
  type : chart.type = type
  data : chart.data = realm.heap.size
  filters : chart.filters = (done.map Row.filter).eraseDups
  categories : chart.categories = (done.map Row.category).eraseDups
  grouped : ∀ filter, layout.group filter = none ↔ filter ∉ done.map Row.filter
  filled : ∀ filter category, layout.series filter category = none ↔
    rowsOf done filter category = []

private theorem appendTo_contentsOf (reading : Reading ν) (type : ChartType) (done : List Row)
    (row : Row) :
    appendTo (contentsOf reading type done) row.filter row.category
        (point (keyOf reading type (rowsOf done row.filter row.category).length row)
          (.host (reading.parseFloat row.value))) =
      contentsOf reading type (done ++ [row]) := by
  funext filter category
  unfold appendTo contentsOf
  by_cases here : filter = row.filter ∧ category = row.category
  · rw [if_pos here, here.1, here.2, rowsOf_concat_self, points_concat]
  · rw [if_neg here, rowsOf_concat_of_ne done here]

private theorem nextKey_eq {chart : Chart ν} {heap : Heap ν} {layout : Layout} {done : List Row}
    (grid : Grid realm heap layout (contentsOf reading chart.type done)) {row : Row} {ref : Nat}
    (found : layout.series row.filter row.category = some ref) :
    ∃ max, nextKey realm reading chart heap (.object ref) row =
      .ok (keyOf reading chart.type (rowsOf done row.filter row.category).length row, max) := by
  have length := grid.get_length found
  rw [contentsOf, points_length] at length
  unfold nextKey keyOf
  cases chart.type with
  | timeseries => exact ⟨_, rfl⟩
  | histogram =>
      dsimp only
      rw [length]
      exact ⟨_, rfl⟩

private theorem addRow_eq {chart : Chart ν} {row : Row} {newFilter newCategory : Bool}
    {heap₁ heap₂ heap₃ : Heap ν} {ofFilter series key : Value ν} {max : Nat}
    (filter : realm.ensureArray chart.heap (.object chart.data) row.filter =
      .ok (newFilter, heap₁))
    (read : realm.get heap₁ (.object chart.data) row.filter = .ok ofFilter)
    (category : realm.ensureArray heap₁ ofFilter row.category = .ok (newCategory, heap₂))
    (entered : entry realm heap₂ chart.data row.filter row.category = .ok series)
    (keyed : nextKey realm reading chart heap₂ series row = .ok (key, max))
    (pushed : realm.push heap₂ series (point key (.host (reading.parseFloat row.value))) =
      .ok heap₃) :
    addRow realm reading chart row =
      .ok { chart with
        heap := heap₃
        filters := if newFilter then chart.filters ++ [row.filter] else chart.filters
        categories :=
          if chart.categories.contains row.category then chart.categories
          else chart.categories ++ [row.category]
        max } := by
  unfold addRow
  rw [filter]
  change (realm.get heap₁ _ _ >>= _) = _
  rw [read]
  change (realm.ensureArray heap₁ _ _ >>= _) = _
  rw [category]
  change (entry realm heap₂ _ _ _ >>= _) = _
  rw [entered]
  change (nextKey realm reading chart heap₂ _ row >>= _) = _
  rw [keyed]
  change (realm.push heap₂ _ _ >>= _) = _
  rw [pushed]
  rfl

private theorem filters_concat {type : ChartType} {done : List Row} {chart : Chart ν}
    {layout : Layout} (running : Running realm reading type done chart layout) (filter : Bytes) :
    (if (layout.group filter).isNone then chart.filters ++ [filter] else chart.filters) =
      (done.map Row.filter ++ [filter]).eraseDups := by
  rw [eraseDups_concat, ← running.filters]
  have listed : filter ∈ chart.filters ↔ filter ∈ done.map Row.filter := by
    rw [running.filters, List.mem_eraseDups]
  by_cases new : layout.group filter = none
  · have unlisted := mt listed.mp ((running.grouped filter).mp new)
    rw [if_neg unlisted, new]
    rfl
  · have known : filter ∈ done.map Row.filter := by
      by_contra unlisted
      exact new ((running.grouped filter).mpr unlisted)
    rw [if_pos (listed.mpr known), if_neg (by simpa using new)]

theorem running_addRow {type : ChartType} {done : List Row} {chart : Chart ν} {layout : Layout}
    (running : Running realm reading type done chart layout) {row : Row}
    (plain : ¬ realm.PlainInherits row.filter) (noLength : row.category ≠ ascii "length")
    (free : ¬ realm.ArrayInherits row.category) :
    ∃ after layout', addRow realm reading chart row = .ok after ∧
      Running realm reading type (done ++ [row]) after layout' := by
  obtain ⟨heap₁, layout₁, ofFilter, filter, grid₁, group₁, others₁, series₁⟩ :=
    running.grid.ensureFilter plain
  have empty : layout₁.series row.filter row.category = none →
      contentsOf reading type done row.filter row.category = [] := by
    intro missing
    rw [series₁, running.filled] at missing
    rw [contentsOf, missing]
    rfl
  obtain ⟨newCategory, heap₂, layout₂, ref, category, grid₂, group₂, found, others₂⟩ :=
    grid₁.ensureCategory group₁ noLength free empty
  have group : layout₂.group row.filter = some ofFilter := by rw [group₂, group₁]
  have entered : entry realm heap₂ realm.heap.size row.filter row.category = .ok (.object ref) := by
    unfold entry
    rw [grid₂.get_data plain group]
    exact grid₂.get_group noLength free group found
  have typed := running.type
  subst typed
  obtain ⟨max, keyed⟩ := nextKey_eq grid₂ found
  obtain ⟨heap₃, pushed, grid₃⟩ := grid₂.push found
    (point (keyOf reading chart.type (rowsOf done row.filter row.category).length row)
      (.host (reading.parseFloat row.value)))
  rw [appendTo_contentsOf] at grid₃
  rw [← running.data] at filter entered
  have read := grid₁.get_data plain group₁
  rw [← running.data] at read
  refine ⟨_, layout₂, addRow_eq filter read category entered keyed pushed, grid₃, rfl,
    running.data, ?_, ?_, ?_, ?_⟩
  · rw [List.map_append, List.map_singleton]
    exact filters_concat running row.filter
  · rw [List.map_append, List.map_singleton, eraseDups_concat, ← running.categories]
    simp only [List.contains_iff_mem]
  · intro filter
    rw [group₂, List.map_append, List.mem_append, List.map_singleton, List.mem_singleton, not_or]
    by_cases same : filter = row.filter
    · rw [same, group₁]
      simp
    · rw [others₁ filter same, running.grouped]
      simp [same]
  · intro filter category
    by_cases here : filter = row.filter ∧ category = row.category
    · rw [here.1, here.2, found, rowsOf_concat_self]
      simp
    · rw [others₂ filter category here, series₁, running.filled, rowsOf_concat_of_ne done here]

section Charts

variable {chart : Chart ν} {layout : Layout} {contents : Bytes → Bytes → List (Value ν)}

private theorem ownEntry_eq {heap : Heap ν} {dictionary : Nat} {name : Bytes} {entry : Option Nat}
    (own : (heap.object dictionary).ownProperty name = entry.map link) :
    ownEntry heap dictionary name = entry := by
  unfold ownEntry
  rw [own]
  cases entry with
  | none => rfl
  | some ref => rfl

theorem series_eq (grid : Grid realm chart.heap layout contents)
    (data : chart.data = realm.heap.size) {filter category : Bytes}
    (noLength : category = ascii "length" → layout.series filter category = none) :
    chart.series filter category = layout.series filter category := by
  have outer : ownEntry chart.heap chart.data filter = layout.group filter := by
    apply ownEntry_eq
    rw [data, Object.ownProperty_of_none grid.data_length, grid.data]
  unfold Chart.series
  rw [outer]
  cases group : layout.group filter with
  | none =>
      cases found : layout.series filter category with
      | none => rfl
      | some ref =>
          have grouped := (grid.series found).grouped
          rw [group] at grouped
          cases grouped
  | some ofFilter =>
      have isGroup := grid.group group
      change ownEntry chart.heap ofFilter category = _
      by_cases isLength : category = ascii "length"
      · obtain ⟨length, isArray⟩ := Option.isSome_iff_exists.mp isGroup.isArray.length
        rw [noLength isLength, ownEntry, isLength, Object.ownProperty_length isArray]
      · apply ownEntry_eq
        rw [Object.ownProperty_of_ne _ isLength, isGroup.own]

private theorem maxOfY_ok (grid : Grid realm chart.heap layout contents) {filter category : Bytes}
    {ref : Nat} (found : layout.series filter category = some ref)
    (arePoints : ∀ value ∈ contents filter category, ∃ key y, value = point key y) :
    discard (maxOfY realm chart.heap (.object ref)) = .ok ⟨⟩ := by
  have elements : ∀ index ∈ List.range (contents filter category).length, ∃ y,
      (realm.get chart.heap (.object ref) (decimal index) >>= fun value =>
        realm.get chart.heap value (ascii "y")) = .ok y := by
    intro index member
    have bound := List.mem_range.mp member
    obtain ⟨key, y, same⟩ := arePoints _ (List.getElem_mem bound)
    refine ⟨y, ?_⟩
    rw [grid.get_element found (List.getElem?_eq_getElem bound), same]
    rfl
  obtain ⟨values, done⟩ := mapM_succeeds elements
  unfold maxOfY
  rw [grid.get_length found]
  change discard ((List.range (contents filter category).length).mapM _) = _
  rw [done]
  rfl

theorem updateChartData_ok (grid : Grid realm chart.heap layout contents)
    (data : chart.data = realm.heap.size) {filter : Bytes} (plain : ¬ realm.PlainInherits filter)
    (categories : ∀ category ∈ chart.categories, category ≠ ascii "length" ∧
      ¬ realm.ArrayInherits category ∧ layout.series filter category ≠ none)
    (arePoints : ∀ category, ∀ value ∈ contents filter category, ∃ key y, value = point key y) :
    ∃ chartData, updateChartData realm chart filter = .ok chartData ∧
      chartData.map some =
        chart.categories.map (fun category => (layout.series filter category).map .object) ∧
      chartData.forM (fun d => discard (maxOfY realm chart.heap d)) = .ok ⟨⟩ := by
  have entries : ∀ category ∈ chart.categories,
      entry realm chart.heap chart.data filter category =
        .ok (.object ((layout.series filter category).getD 0)) := by
    intro category member
    obtain ⟨noLength, free, filled⟩ := categories category member
    obtain ⟨ref, found⟩ := Option.ne_none_iff_exists'.mp filled
    obtain ⟨ofFilter, group⟩ := Option.isSome_iff_exists.mp (grid.series found).grouped
    unfold entry
    rw [data, grid.get_data plain group, found]
    exact grid.get_group noLength free group found
  have maxima : ∀ d ∈ chart.categories.map
      (fun category => Value.object ((layout.series filter category).getD 0)),
      discard (maxOfY realm chart.heap d) = .ok ⟨⟩ := by
    intro d member
    obtain ⟨category, inCategories, same⟩ := List.mem_map.mp member
    obtain ⟨ref, found⟩ := Option.ne_none_iff_exists'.mp (categories category inCategories).2.2
    rw [← same, found]
    exact maxOfY_ok grid found (arePoints category)
  refine ⟨_, ?_, ?_, forM_eq_ok maxima⟩
  · unfold updateChartData
    rw [mapM_eq_ok entries]
    change (List.forM (m := Except Exception) _ _ >>= _) = _
    rw [forM_eq_ok maxima]
    rfl
  · rw [List.map_map]
    apply List.map_congr_left
    intro category member
    obtain ⟨ref, found⟩ := Option.ne_none_iff_exists'.mp (categories category member).2.2
    rw [Function.comp_apply, found]
    rfl

end Charts

/-! ### Regular rows -/

private theorem running_start (realm : Realm ν) (reading : Reading ν) (first second : Row) :
    ∃ layout, Running realm reading (startChart realm reading first second).type []
      (startChart realm reading first second) layout := by
  have grid : Grid realm (startChart realm reading first second).heap
      { group := fun _ => none, series := fun _ _ => none, role := fun _ => ([], none) }
      (contentsOf reading (startChart realm reading first second).type []) := by
    constructor
    · exact Nat.lt_succ_self _
    · intro ref below
      exact Heap.alloc_object_of_lt _ _ below
    · exact Heap.alloc_object_self _ _
    · intro filter ref found
      cases found
    · intro filter category ref found
      cases found
  exact ⟨_, grid, rfl, rfl, rfl, rfl, fun _ => by simp, fun _ _ => by simp [rowsOf]⟩

private theorem points_are_points {type : ChartType} {rows : List Row} {filter : Bytes}
    (category : Bytes) :
    ∀ value ∈ contentsOf reading type rows filter category, ∃ key y, value = point key y := by
  intro value member
  obtain ⟨index, bound, same⟩ := List.mem_mapIdx.mp member
  exact ⟨_, _, same.symm⟩

section Regular

variable {rows : List Row} {type : ChartType} {chart : Chart ν} {layout : Layout}

private theorem series_of_running (regular : Regular realm rows)
    (running : Running realm reading type rows chart layout) (filter category : Bytes) :
    chart.series filter category = layout.series filter category := by
  apply series_eq running.grid running.data
  intro isLength
  rw [running.filled]
  by_contra some
  obtain ⟨row, member⟩ := List.exists_mem_of_ne_nil _ some
  rw [rowsOf, List.mem_filter, decide_eq_true_eq] at member
  exact (regular.categories row member.1).1 (member.2.2.trans isLength)

private theorem shown_of_running (regular : Regular realm rows)
    (running : Running realm reading type rows chart layout) {filter : Bytes}
    (listed : filter ∈ chart.filters) :
    ∃ chartData, updateChartData realm chart filter = .ok chartData ∧
      chartData.map some =
        chart.categories.map (fun category => (layout.series filter category).map .object) ∧
      chartData.forM (fun d => discard (maxOfY realm chart.heap d)) = .ok ⟨⟩ := by
  rw [running.filters, List.mem_eraseDups] at listed
  obtain ⟨first, inFirst, named⟩ := List.mem_map.mp listed
  subst named
  apply updateChartData_ok running.grid running.data (regular.filters first inFirst)
  · intro category listed
    rw [running.categories, List.mem_eraseDups] at listed
    obtain ⟨second, inSecond, named⟩ := List.mem_map.mp listed
    subst named
    obtain ⟨noLength, free⟩ := regular.categories second inSecond
    refine ⟨noLength, free, ?_⟩
    rw [ne_eq, running.filled]
    obtain ⟨row, member, sameFilter, sameCategory⟩ :=
      regular.complete first inFirst second inSecond
    rw [← sameFilter, ← sameCategory]
    exact mem_rowsOf member
  · exact points_are_points

private theorem update_ok {filter : Bytes} {chartData : List (Value ν)}
    (done : updateChartData realm chart filter = .ok chartData)
    (maxima : chartData.forM (fun d => discard (maxOfY realm chart.heap d)) = .ok ⟨⟩) :
    update realm { chart with selectedFilter := filter } = .ok chartData := by
  have same : updateChartData realm { chart with selectedFilter := filter } filter =
      .ok chartData := done
  unfold update
  dsimp only
  rw [same]
  change (List.forM (m := Except Exception) _ _ >>= _) = _
  rw [maxima]
  rfl

theorem grouped_of_running (regular : Regular realm rows)
    (running : Running realm reading type rows chart layout) :
    Grouped realm reading rows chart := by
  have typed := running.type
  subst typed
  have series := series_of_running regular running
  constructor
  · exact running.filters
  · exact running.categories
  · intro filter category nothing
    rw [series, running.filled, nothing]
  · intro filter category some
    rw [ne_eq, ← running.filled, ← ne_eq, Option.ne_none_iff_exists'] at some
    rcases some with ⟨array, found⟩
    exact ⟨array, (series _ _).trans found, (running.grid.series found).holds⟩
  · intro filter category filter' category' array found found'
    rw [series] at found found'
    exact running.grid.series_injective found found'
  · intro filter listed
    obtain ⟨chartData, done, defined, -⟩ := shown_of_running regular running listed
    refine ⟨chartData, done, defined.trans ?_⟩
    apply List.map_congr_left
    intro category _
    rw [series]
  · intro filter listed
    obtain ⟨chartData, done, -, maxima⟩ := shown_of_running regular running listed
    rw [update_ok done maxima]
    rfl

end Regular

private theorem running_rows {rows : List Row} (regular : Regular realm rows) {start : Chart ν}
    {layout : Layout} (running : Running realm reading start.type [] start layout) :
    ∃ looped layout', rows.foldlM (addRow realm reading) start = .ok looped ∧
      Running realm reading start.type rows looped layout' := by
  have step : ∀ done (chart : Chart ν) row, row ∈ rows →
      (∃ layout, Running realm reading start.type done chart layout) →
      ∃ after, addRow realm reading chart row = .ok after ∧
        ∃ layout, Running realm reading start.type (done ++ [row]) after layout := by
    intro done chart row member isRunning
    rcases isRunning with ⟨layout, running⟩
    obtain ⟨noLength, free⟩ := regular.categories row member
    obtain ⟨after, layout', added, kept⟩ :=
      running_addRow running (regular.filters row member) noLength free
    exact ⟨after, added, layout', kept⟩
  obtain ⟨looped, loop, layout', kept⟩ := foldlM_succeeds _ step ⟨layout, running⟩
  exact ⟨looped, layout', loop, kept⟩

theorem groupsRows_of_regular {rows : List Row} (regular : Regular realm rows) :
    GroupsRows realm reading rows := by
  match rows, regular.several with
  | first :: second :: rest, _ =>
      obtain ⟨layout, start⟩ := running_start realm reading first second
      obtain ⟨looped, layout', loop, running⟩ := running_rows regular start
      have head : looped.filters.head?.getD (ascii "undefined") = first.filter := by
        rw [running.filters, List.map_cons, List.eraseDups_cons]
        rfl
      have listed : first.filter ∈ looped.filters := by
        rw [running.filters, List.mem_eraseDups]
        exact List.mem_cons_self
      have selected : Running realm reading (startChart realm reading first second).type
          (first :: second :: rest) { looped with selectedFilter := first.filter } layout' :=
        ⟨running.grid, running.type, running.data, running.filters, running.categories,
          running.grouped, running.filled⟩
      refine ⟨{ looped with selectedFilter := first.filter }, ?_,
        grouped_of_running regular selected⟩
      obtain ⟨chartData, done, -, maxima⟩ := shown_of_running regular selected listed
      unfold create
      dsimp only
      rw [loop]
      change (updateChartData realm
        { looped with selectedFilter := looped.filters.head?.getD (ascii "undefined") } _ >>= _) = _
      rw [head, done]
      change (List.forM (m := Except Exception) _ _ >>= _) = _
      rw [maxima]
      rfl

/-- The rows that `create` groups as it is meant to, on any engine. -/
theorem groupsRows_iff (realm : Realm ν) (reading : Reading ν) (rows : List Row) :
    GroupsRows realm reading rows ↔ Regular realm rows :=
  ⟨regular_of_groupsRows, groupsRows_of_regular⟩

/-- Two filters with one category each, and no category of both. -/
def apartRows : List Row :=
  [⟨ascii "a", ascii "x", ascii "0", ascii "1"⟩, ⟨ascii "b", ascii "y", ascii "0", ascii "1"⟩]

def unitReading : Reading Unit where
  date _ := ()
  isRecent _ := false
  parseFloat _ := ()

theorem apartRows_not_grouped :
    (create Es5.realm unitReading apartRows).isOk = false ∧
      ¬ GroupsRows Es5.realm unitReading apartRows := by
  have throws : (create Es5.realm unitReading apartRows).isOk = false := by decide
  refine ⟨throws, ?_⟩
  intro groups
  rcases groups with ⟨chart, done, -⟩
  rw [done] at throws
  cases throws

end Packetpig.MultipleTimeSeries
