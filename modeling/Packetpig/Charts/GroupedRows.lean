/-
When `create` groups the rows as it is meant to, with every chart of every
filter defined: the inputs on which it does not.

The dictionaries are plain objects and arrays, so names that these inherit are
taken for entries, and a filter without rows of some category has no series.
-/

import Packetpig.Library.JsHeap
import Packetpig.Charts.MultipleTimeSeries

namespace Packetpig.MultipleTimeSeries

open Text Js Realm

variable {ν : Type}

def rowsOf (rows : List Row) (filter category : Bytes) : List Row :=
  rows.filter fun row => row.filter = filter ∧ row.category = category

def keyOf (reading : Reading ν) (type : ChartType) (index : Nat) (row : Row) : Value ν :=
  match type with
  | .timeseries => .host (reading.date row.key)
  | .histogram => .number index

def points (reading : Reading ν) (type : ChartType) (rows : List Row) : List (Value ν) :=
  rows.mapIdx fun index row =>
    point (keyOf reading type index row) (.host (reading.parseFloat row.value))

def ownEntry (heap : Heap ν) (dictionary : Nat) (name : Bytes) : Option Nat :=
  match (heap.object dictionary).ownProperty name with
  | some (.value (.object ref) _) => some ref
  | _ => none

def Chart.series (chart : Chart ν) (filter category : Bytes) : Option Nat :=
  (ownEntry chart.heap chart.data filter).bind fun ofFilter =>
    ownEntry chart.heap ofFilter category

structure Holds (heap : Heap ν) (array : Nat) (values : List (Value ν)) : Prop where
  length : (heap.object array).length = some values.length
  element : ∀ {index value}, values[index]? = some value →
    (heap.object array).own (decimal index) = some (.value value true)

/-- The rows are grouped: each is in the series of its filter and category, and
every chart of every filter is one of these series. -/
structure Grouped (realm : Realm ν) (reading : Reading ν) (rows : List Row) (chart : Chart ν) :
    Prop where
  filters : chart.filters = (rows.map Row.filter).eraseDups
  categories : chart.categories = (rows.map Row.category).eraseDups
  absent : ∀ filter category, rowsOf rows filter category = [] →
    chart.series filter category = none
  present : ∀ filter category, rowsOf rows filter category ≠ [] →
    ∃ array, chart.series filter category = some array ∧
      Holds chart.heap array (points reading chart.type (rowsOf rows filter category))
  apart : ∀ {filter category filter' category' array},
    chart.series filter category = some array → chart.series filter' category' = some array →
      filter = filter' ∧ category = category'
  shown : ∀ filter ∈ chart.filters, ∃ chartData,
    updateChartData realm chart filter = .ok chartData ∧
      chartData.map some =
        chart.categories.map fun category => (chart.series filter category).map .object
  updated : ∀ filter ∈ chart.filters,
    (update realm { chart with selectedFilter := filter }).isOk = true

def GroupsRows (realm : Realm ν) (reading : Reading ν) (rows : List Row) : Prop :=
  ∃ chart, create realm reading rows = .ok chart ∧ Grouped realm reading rows chart

/-- At least two rows, no filter that plain objects inherit, no category that is
a property of every array, and a row for each filter with each category. -/
structure Regular (realm : Realm ν) (rows : List Row) : Prop where
  several : 2 ≤ rows.length
  filters : ∀ row ∈ rows, ¬ realm.PlainInherits row.filter
  categories : ∀ row ∈ rows, row.category ≠ ascii "length" ∧ ¬ realm.ArrayInherits row.category
  complete : ∀ first ∈ rows, ∀ second ∈ rows,
    ∃ row ∈ rows, row.filter = first.filter ∧ row.category = second.category

variable {realm : Realm ν} {reading : Reading ν}

inductive Added (realm : Realm ν) (chart : Chart ν) (row : Row) (after : Chart ν) : Prop
  | steps {newFilter newCategory : Bool} {heap heap' : Heap ν} {ofFilter series value : Value ν}
      (filter : realm.Ensured chart.heap (.object chart.data) row.filter newFilter heap)
      (read : realm.get heap (.object chart.data) row.filter = .ok ofFilter)
      (category : realm.Ensured heap ofFilter row.category newCategory heap')
      (pushed : realm.push heap' series value = .ok after.heap)
      (filters : after.filters =
        if newFilter then chart.filters ++ [row.filter] else chart.filters)
      (data : after.data = chart.data)

theorem added_of_ok {chart after : Chart ν} {row : Row}
    (done : addRow realm reading chart row = .ok after) : Added realm chart row after := by
  unfold addRow at done
  obtain ⟨⟨newFilter, heap⟩, ensured, done⟩ := bind_eq_ok done
  obtain ⟨ofFilter, read, done⟩ := bind_eq_ok done
  obtain ⟨⟨newCategory, heap'⟩, ensured', done⟩ := bind_eq_ok done
  obtain ⟨series, -, done⟩ := bind_eq_ok done
  obtain ⟨⟨key, max⟩, -, done⟩ := bind_eq_ok done
  obtain ⟨heap'', pushed, done⟩ := bind_eq_ok done
  cases done
  exact .steps (realm.ensured_of_ok ensured) read (realm.ensured_of_ok ensured') pushed rfl rfl

/-- The name is inherited by the outer dictionary and is not listed. -/
structure Hidden (realm : Realm ν) (filter : Bytes) (chart : Chart ν) : Prop where
  allocated : chart.data < chart.heap.size
  chain : (chart.heap.object chart.data).chain = [realm.objectPrototype]
  inherits : Inherits chart.heap [realm.objectPrototype] filter
  own : (chart.heap.object chart.data).own filter = none
  unlisted : filter ∉ chart.filters

private theorem hidden_step {heap heap' : Heap ν} {data : Nat} {filter : Bytes}
    (plain : PlainName filter) (grows : realm.Grows heap heap') (keeps : Keeps filter heap heap')
    (hidden : data < heap.size ∧ (heap.object data).chain = [realm.objectPrototype] ∧
      Inherits heap [realm.objectPrototype] filter ∧ (heap.object data).own filter = none) :
    data < heap'.size ∧ (heap'.object data).chain = [realm.objectPrototype] ∧
      Inherits heap' [realm.objectPrototype] filter ∧ (heap'.object data).own filter = none := by
  rcases hidden with ⟨allocated, chain, inherits, own⟩
  have below : Inherits heap (heap.object data).chain filter := by rwa [chain]
  exact ⟨Nat.lt_of_lt_of_le allocated grows.size, (grows.chain allocated).trans chain,
    inherits.step plain grows keeps, below.own_none keeps plain allocated own⟩

private theorem Hidden.added {filter : Bytes} (plain : PlainName filter) {chart after : Chart ν}
    {row : Row} (hidden : Hidden realm filter chart) (added : Added realm chart row after) :
    Hidden realm filter after := by
  cases added with
  | steps ensured _ ensured' pushed filters data =>
      have start := And.intro hidden.allocated
        (And.intro hidden.chain (And.intro hidden.inherits hidden.own))
      have first := hidden_step plain ensured.grows (ensured.keeps realm plain) start
      have second := hidden_step plain ensured'.grows (ensured'.keeps realm plain) first
      have third := hidden_step plain (realm.grows_of_push pushed)
        (realm.keeps_of_push pushed plain) second
      rw [← data] at third
      refine ⟨third.1, third.2.1, third.2.2.1, third.2.2.2, ?_⟩
      rw [filters]
      split
      · rename_i created
        rw [List.mem_append, List.mem_singleton, not_or]
        refine ⟨hidden.unlisted, ?_⟩
        intro same
        have below : Inherits chart.heap (chart.heap.object chart.data).chain filter := by
          rw [hidden.chain]
          exact hidden.inherits
        obtain ⟨value, read, truthy⟩ :=
          below.get_truthy realm plain hidden.allocated hidden.own
        rw [same] at read
        rw [ensured.not_created realm read truthy] at created
        cases created
      · exact hidden.unlisted

structure Blocked (realm : Realm ν) (data : Nat) (category : Bytes) (heap : Heap ν) : Prop where
  allocated : data < heap.size
  inherits : Inherits heap [realm.arrayPrototype, realm.objectPrototype] category
  arrays : ∀ {ref}, data < ref → ref < heap.size →
    (heap.object ref).chain = [realm.arrayPrototype, realm.objectPrototype] ∧
      (heap.object ref).own category = none

private theorem Blocked.step {data : Nat} {category : Bytes} {heap heap' : Heap ν}
    (plain : PlainName category) (grows : realm.Grows heap heap')
    (keeps : Keeps category heap heap') (blocked : Blocked realm data category heap) :
    Blocked realm data category heap' where
  allocated := Nat.lt_of_lt_of_le blocked.allocated grows.size
  inherits := blocked.inherits.step plain grows keeps
  arrays {ref} above allocated := by
    by_cases old : ref < heap.size
    · obtain ⟨chain, own⟩ := blocked.arrays above old
      have below : Inherits heap (heap.object ref).chain category := by
        rw [chain]
        exact blocked.inherits
      exact ⟨(grows.chain old).trans chain, below.own_none keeps plain old own⟩
    · rw [grows.fresh (Nat.le_of_not_lt old) allocated]
      exact ⟨rfl, rfl⟩

private theorem Blocked.added {category : Bytes} (plain : PlainName category)
    {chart after : Chart ν} {row : Row} (blocked : Blocked realm chart.data category chart.heap)
    (added : Added realm chart row after) : Blocked realm after.data category after.heap := by
  cases added with
  | steps ensured _ ensured' pushed _ data =>
      rw [data]
      have first := blocked.step plain ensured.grows (ensured.keeps realm plain)
      have second := first.step plain ensured'.grows (ensured'.keeps realm plain)
      exact second.step plain (realm.grows_of_push pushed) (realm.keeps_of_push pushed plain)

/-- The outer dictionary is no array, and what it has is arrays of the run. -/
structure Owned (data : Nat) (heap : Heap ν) : Prop where
  allocated : data < heap.size
  noArray : (heap.object data).length = none
  arrays : ∀ {ref}, data < ref → ref < heap.size → (heap.object ref).length.isSome = true
  entries : ∀ {name ref writable},
    (heap.object data).own name = some (.value (.object ref) writable) →
      data < ref ∧ ref < heap.size

private theorem Owned.grow {data : Nat} {heap heap' : Heap ν} (grows : realm.Grows heap heap')
    (owned : Owned data heap)
    (entries : ∀ {name ref writable},
      (heap'.object data).own name = some (.value (.object ref) writable) →
        data < ref ∧ ref < heap'.size) : Owned data heap' where
  allocated := Nat.lt_of_lt_of_le owned.allocated grows.size
  noArray := by
    have same := grows.array owned.allocated
    rw [owned.noArray] at same
    exact Option.isSome_eq_false_iff.mp same |> Option.isNone_iff_eq_none.mp
  arrays {ref} above allocated := by
    by_cases old : ref < heap.size
    · rw [grows.array old]
      exact owned.arrays above old
    · rw [grows.fresh (Nat.le_of_not_lt old) allocated]
      rfl
  entries := entries

private theorem Owned.ensured {data : Nat} {heap heap' : Heap ν} {receiver : Value ν}
    {name : Bytes} {created : Bool} (ensured : realm.Ensured heap receiver name created heap')
    (owned : Owned data heap) : Owned data heap' := by
  apply owned.grow ensured.grows
  intro other ref writable own
  have old : (heap.object data).own other = some (.value (.object ref) writable) →
      data < ref ∧ ref < heap.size + 1 := by
    intro own
    have bounds := owned.entries own
    exact ⟨bounds.1, Nat.lt_succ_of_lt bounds.2⟩
  cases ensured with
  | present => exact owned.entries own
  | ignored =>
      rw [heap.alloc_object_of_lt _ owned.allocated] at own
      exact old own
  | @written target _ object allocated read readFalsy falsy =>
      by_cases same : data = target
      · subst same
        rw [Heap.set_object_self, Object.putArray_of_plain owned.noArray] at own
        by_cases named : other = name
        · subst named
          rw [Object.write_own_self] at own
          cases own
          exact ⟨owned.allocated, Nat.lt_succ_self _⟩
        · rw [Object.write_own_of_ne _ named] at own
          exact old own
      · rw [Heap.set_object_of_ne _ same, heap.alloc_object_of_lt _ owned.allocated] at own
        exact old own

private theorem Owned.pushed {data : Nat} {heap heap' : Heap ν} {receiver value : Value ν}
    (pushed : realm.push heap receiver value = .ok heap') (owned : Owned data heap) :
    Owned data heap' := by
  apply owned.grow (realm.grows_of_push pushed)
  intro other ref writable own
  obtain ⟨target, length, -, -, isArray, same⟩ := realm.pushed_of_ok pushed
  subst same
  have different : data ≠ target := by
    intro same
    rw [← same, owned.noArray] at isArray
    cases isArray
  rw [Heap.set_object_of_ne _ different] at own
  exact owned.entries own

private theorem Owned.added {chart after : Chart ν} {row : Row}
    (owned : Owned chart.data chart.heap)
    (added : Added realm chart row after) : Owned after.data after.heap := by
  cases added with
  | steps ensured _ ensured' pushed _ data =>
      rw [data]
      exact ((owned.ensured ensured).ensured ensured').pushed pushed

/-! ### Whole runs -/

private theorem create_eq_ok {rows : List Row} {chart : Chart ν}
    (done : create realm reading rows = .ok chart) :
    ∃ first second rest looped, rows = first :: second :: rest ∧
      rows.foldlM (addRow realm reading) (startChart realm reading first second) = .ok looped ∧
      chart.data = looped.data ∧ chart.heap = looped.heap ∧ chart.filters = looped.filters := by
  unfold create at done
  match rows, done with
  | [], done => cases done
  | [_], done => cases done
  | first :: second :: rest, done =>
      obtain ⟨looped, loop, done⟩ := bind_eq_ok done
      obtain ⟨chartData, -, done⟩ := bind_eq_ok done
      obtain ⟨-, -, done⟩ := bind_eq_ok done
      cases done
      exact ⟨first, second, rest, looped, rfl, loop, rfl, rfl, rfl⟩

private theorem run_invariant (Inv : Chart ν → Prop) {rows : List Row} {chart : Chart ν}
    (start : ∀ first second, Inv (startChart realm reading first second))
    (kept : ∀ {before after row}, Inv before → Added realm before row after → Inv after)
    (done : create realm reading rows = .ok chart) :
    ∃ looped, Inv looped ∧ chart.data = looped.data ∧ chart.heap = looped.heap ∧
      chart.filters = looped.filters := by
  obtain ⟨first, second, rest, looped, -, loop, data, heap, filters⟩ := create_eq_ok done
  refine ⟨looped, ?_, data, heap, filters⟩
  exact foldlM_invariant (fun _ => Inv)
    (fun _ _ _ _ inv step => kept inv (added_of_ok step)) (start first second) loop

private theorem start_object (realm : Realm ν) (reading : Reading ν) (first second : Row) :
    (startChart realm reading first second).heap.object realm.heap.size = realm.plainObject :=
  Heap.alloc_object_self _ _

theorem filter_unlisted {rows : List Row} {chart : Chart ν} {filter : Bytes}
    (inherited : realm.PlainInherits filter) (done : create realm reading rows = .ok chart) :
    filter ∉ chart.filters := by
  obtain ⟨plain, inherits⟩ := realm.inherits_of_plainInherits inherited
  have start : ∀ first second, Hidden realm filter (startChart realm reading first second) := by
    intro first second
    have object := start_object realm reading first second
    refine ⟨Nat.lt_succ_self _, ?_, inherits.alloc _, ?_, List.not_mem_nil⟩
    · exact congrArg Object.chain object
    · exact congrArg (fun object => object.own filter) object
  obtain ⟨looped, hidden, -, -, filters⟩ :=
    run_invariant (Hidden realm filter) start (fun hidden => hidden.added plain) done
  rw [filters]
  exact hidden.unlisted

private theorem owned_of_create {rows : List Row} {chart : Chart ν}
    (done : create realm reading rows = .ok chart) : Owned chart.data chart.heap := by
  have start : ∀ first second, Owned (startChart realm reading first second).data
      (startChart realm reading first second).heap := by
    intro first second
    have object := start_object realm reading first second
    refine ⟨Nat.lt_succ_self _, congrArg Object.length object, ?_, ?_⟩
    · intro ref above allocated
      exact absurd (Nat.lt_succ_iff.mp allocated) (Nat.not_le_of_lt above)
    · intro name ref writable own
      rw [show (startChart realm reading first second).data = realm.heap.size from rfl,
        object] at own
      cases own
  obtain ⟨looped, owned, data, heap, -⟩ :=
    run_invariant (fun chart => Owned chart.data chart.heap) start Owned.added done
  rwa [data, heap]

private theorem blocked_of_create {rows : List Row} {chart : Chart ν} {category : Bytes}
    (noLength : category ≠ ascii "length") (inherited : realm.ArrayInherits category)
    (done : create realm reading rows = .ok chart) :
    Blocked realm chart.data category chart.heap := by
  obtain ⟨plain, inherits⟩ := realm.inherits_of_arrayInherits noLength inherited
  have start : ∀ first second, Blocked realm (startChart realm reading first second).data category
      (startChart realm reading first second).heap := by
    intro first second
    refine ⟨Nat.lt_succ_self _, inherits.alloc _, ?_⟩
    intro ref above allocated
    exact absurd (Nat.lt_succ_iff.mp allocated) (Nat.not_le_of_lt above)
  obtain ⟨looped, blocked, data, heap, -⟩ :=
    run_invariant (fun chart => Blocked realm chart.data category chart.heap) start
      (fun blocked => blocked.added plain) done
  rwa [data, heap]

theorem series_blocked {rows : List Row} {chart : Chart ν} {filter category : Bytes}
    (taken : category = ascii "length" ∨ realm.ArrayInherits category)
    (done : create realm reading rows = .ok chart) : chart.series filter category = none := by
  have owned := owned_of_create done
  unfold Chart.series
  cases found : ownEntry chart.heap chart.data filter with
  | none => rfl
  | some ref =>
      have own : ∃ writable, (chart.heap.object chart.data).own filter =
          some (.value (.object ref) writable) := by
        unfold ownEntry at found
        rw [Object.ownProperty_of_none owned.noArray] at found
        split at found
        · rename_i writable own
          cases found
          exact ⟨writable, own⟩
        · cases found
      rcases own with ⟨writable, own⟩
      obtain ⟨above, allocated⟩ := owned.entries own
      change ownEntry chart.heap ref category = none
      unfold ownEntry
      by_cases isLength : category = ascii "length"
      · obtain ⟨length, isArray⟩ := Option.isSome_iff_exists.mp (owned.arrays above allocated)
        rw [isLength, Object.ownProperty_length isArray]
      · have blocked := blocked_of_create isLength (taken.resolve_left isLength) done
        rw [Object.ownProperty_of_ne _ isLength, (blocked.arrays above allocated).2]

theorem mem_rowsOf {rows : List Row} {row : Row} (member : row ∈ rows) :
    rowsOf rows row.filter row.category ≠ [] := by
  apply List.ne_nil_of_mem (a := row)
  rw [rowsOf, List.mem_filter]
  exact ⟨member, by simp⟩

theorem regular_of_groupsRows {rows : List Row} (groups : GroupsRows realm reading rows) :
    Regular realm rows := by
  rcases groups with ⟨chart, done, grouped⟩
  constructor
  · obtain ⟨first, second, rest, -, shape, -⟩ := create_eq_ok done
    rw [shape]
    simp
  · intro row member inherited
    apply filter_unlisted inherited done
    rw [grouped.filters, List.mem_eraseDups]
    exact List.mem_map_of_mem member
  · intro row member
    obtain ⟨array, series, -⟩ := grouped.present row.filter row.category (mem_rowsOf member)
    have free : ¬ (row.category = ascii "length" ∨ realm.ArrayInherits row.category) := by
      intro taken
      rw [series_blocked taken done] at series
      cases series
    rwa [not_or] at free
  · intro first inFirst second inSecond
    have listed : first.filter ∈ chart.filters := by
      rw [grouped.filters, List.mem_eraseDups]
      exact List.mem_map_of_mem inFirst
    have listed' : second.category ∈ chart.categories := by
      rw [grouped.categories, List.mem_eraseDups]
      exact List.mem_map_of_mem inSecond
    obtain ⟨chartData, -, shown⟩ := grouped.shown _ listed
    have defined : (chart.series first.filter second.category).map (Value.object : Nat → Value ν) ∈
        chartData.map some := by
      rw [shown]
      exact List.mem_map_of_mem listed'
    obtain ⟨value, -, same⟩ := List.mem_map.mp defined
    have some : rowsOf rows first.filter second.category ≠ [] := by
      intro nothing
      rw [grouped.absent _ _ nothing] at same
      cases same
    obtain ⟨row, member⟩ := List.exists_mem_of_ne_nil _ some
    rw [rowsOf, List.mem_filter, decide_eq_true_eq] at member
    exact ⟨row, member.1, member.2⟩

end Packetpig.MultipleTimeSeries
