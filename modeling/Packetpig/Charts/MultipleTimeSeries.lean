/-
MultipleTimeSeries of the browser charts: `create` sorts the rows into
`data[filter][category]` and keeps the lists of filters and of categories, and
every drawing starts from `updateChartData`.

Scales and drawing are left out, but not what they dereference.
-/

import Packetpig.Library.JsObject

namespace Packetpig.MultipleTimeSeries

open Text Js

/-- `filter,category,ts,value` or `filter,category,histogramkey,value`. -/
structure Row where
  filter : Bytes
  category : Bytes
  key : Bytes
  value : Bytes
deriving DecidableEq, Repr

/-- What the columns of a row are read as: `new Date(1000 * parseInt(text))`,
whether that is between the years 2000 and 2020 in the time zone of the browser,
and `parseFloat(text)`. -/
structure Reading (ν : Type) where
  date : Bytes → ν
  isRecent : Bytes → Bool
  parseFloat : Bytes → ν

inductive ChartType where
  | timeseries
  | histogram
deriving DecidableEq, Repr

/-- The fields of `Packetloop.MultipleTimeSeries`; `max` is used for histograms
only, and `data` is the reference of the outer dictionary. -/
structure Chart (ν : Type) where
  type : ChartType
  heap : Heap ν
  data : Nat
  filters : List Bytes
  categories : List Bytes
  max : Nat
  selectedFilter : Bytes

section Source

variable {ν : Type} (realm : Realm ν) (reading : Reading ν)

/-- `data[filter][category]`. -/
def entry (heap : Heap ν) (data : Nat) (filter category : Bytes) : Except Exception (Value ν) := do
  realm.get heap (← realm.get heap (.object data) filter) category

/-- The numbers that `d3.max(array, function(d) { return d.y })` compares. -/
def maxOfY (heap : Heap ν) (array : Value ν) : Except Exception (List (Value ν)) := do
  match ← realm.get heap array (ascii "length") with
  | .number length =>
      (List.range length).mapM fun i => do
        realm.get heap (← realm.get heap array (decimal i)) (ascii "y")
  | _ => pure []

def updateChartData (chart : Chart ν) (selFil : Bytes) : Except Exception (List (Value ν)) := do
  let chartData ← chart.categories.mapM (entry realm chart.heap chart.data selFil)
  chartData.forM fun d => discard (maxOfY realm chart.heap d)
  pure chartData

/-- `if (key > max) max = key`; a key that is no number is not greater. -/
def raisedMax (max : Nat) : Value ν → Nat
  | .number key => if key > max then key else max
  | _ => max

def point (key y : Value ν) : Value ν := .record [(ascii "x", key), (ascii "y", y)]

/-- The `x` of the next point of a series, and the running maximum. -/
def nextKey (chart : Chart ν) (heap : Heap ν) (series : Value ν) (row : Row) :
    Except Exception (Value ν × Nat) :=
  match chart.type with
  | .timeseries => .ok (.host (reading.date row.key), chart.max)
  | .histogram => do
      let key ← realm.get heap series (ascii "length")
      pure (key, raisedMax chart.max key)

def addRow (chart : Chart ν) (row : Row) : Except Exception (Chart ν) := do
  let (newFilter, heap) ← realm.ensureArray chart.heap (.object chart.data) row.filter
  let filters := if newFilter then chart.filters ++ [row.filter] else chart.filters
  let categories :=
    if chart.categories.contains row.category then chart.categories
    else chart.categories ++ [row.category]
  let ofFilter ← realm.get heap (.object chart.data) row.filter
  let (_, heap) ← realm.ensureArray heap ofFilter row.category
  let series ← entry realm heap chart.data row.filter row.category
  let (key, max) ← nextKey realm reading chart heap series row
  let heap ← realm.push heap series (point key (.host (reading.parseFloat row.value)))
  pure { chart with heap, filters, categories, max }

/-- The state in front of the loop; `rows[0][2]` and `rows[1][0]` are read. -/
def startChart (first second : Row) : Chart ν :=
  { type := if reading.isRecent first.key then .timeseries else .histogram
    heap := realm.heap.alloc realm.plainObject
    data := realm.heap.size
    filters := []
    categories := []
    max := 0
    selectedFilter := second.filter }

def create (rows : List Row) : Except Exception (Chart ν) := do
  match rows with
  | first :: second :: _ =>
      let chart ← rows.foldlM (addRow realm reading) (startChart realm reading first second)
      -- `filters[0]` of no filters is named `undefined`.
      let chart := { chart with selectedFilter := chart.filters.head?.getD (ascii "undefined") }
      let chartData ← updateChartData realm chart chart.selectedFilter
      chartData.forM fun d => discard (maxOfY realm chart.heap d)
      pure chart
  | _ => .error .typeError

def update (chart : Chart ν) : Except Exception (List (Value ν)) := do
  let chartData ← updateChartData realm chart chart.selectedFilter
  chartData.forM fun d => discard (maxOfY realm chart.heap d)
  pure chartData

end Source

end Packetpig.MultipleTimeSeries
