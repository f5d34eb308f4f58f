/-
The dictionaries of MultipleTimeSeries while all names are free: one array for
each filter, in it one array for each category, and no two of them the same.
-/

import Packetpig.Charts.GroupedRows

namespace Packetpig.MultipleTimeSeries

open Text Js Realm

variable {ν : Type} {realm : Realm ν} {reading : Reading ν}

structure Layout where
  group : Bytes → Option Nat
  series : Bytes → Bytes → Option Nat
  role : Nat → Bytes × Option Bytes

namespace Layout

def addGroup (layout : Layout) (filter : Bytes) (ref : Nat) : Layout :=
  { layout with
    group := Function.update layout.group filter (some ref)
    role := Function.update layout.role ref (filter, none) }

def addSeries (layout : Layout) (filter category : Bytes) (ref : Nat) : Layout :=
  { layout with
    series := fun filter' category' =>
      if filter' = filter ∧ category' = category then some ref
      else layout.series filter' category'
    role := Function.update layout.role ref (filter, some category) }

variable (layout : Layout) {filter other category : Bytes} {ref ref' : Nat}

theorem addGroup_group_self : (layout.addGroup filter ref).group filter = some ref :=
  Function.update_self _ _ _

theorem addGroup_group_of_ne (different : other ≠ filter) :
    (layout.addGroup filter ref).group other = layout.group other :=
  Function.update_of_ne different _ _

theorem addGroup_role_self : (layout.addGroup filter ref).role ref = (filter, none) :=
  Function.update_self _ _ _

theorem addGroup_role_of_ne (different : ref' ≠ ref) :
    (layout.addGroup filter ref).role ref' = layout.role ref' :=
  Function.update_of_ne different _ _

theorem addSeries_series_self :
    (layout.addSeries filter category ref).series filter category = some ref :=
  if_pos ⟨rfl, rfl⟩

theorem addSeries_series_of_ne {other' : Bytes}
    (different : ¬ (other = filter ∧ other' = category)) :
    (layout.addSeries filter category ref).series other other' = layout.series other other' :=
  if_neg different

theorem addSeries_role_self :
    (layout.addSeries filter category ref).role ref = (filter, some category) :=
  Function.update_self _ _ _

theorem addSeries_role_of_ne (different : ref' ≠ ref) :
    (layout.addSeries filter category ref).role ref' = layout.role ref' :=
  Function.update_of_ne different _ _

end Layout

def link (ref : Nat) : Property ν := .value (.object ref) true

structure IsArray (realm : Realm ν) (heap : Heap ν) (ref : Nat) : Prop where
  above : realm.heap.size < ref
  allocated : ref < heap.size
  chain : (heap.object ref).chain = [realm.arrayPrototype, realm.objectPrototype]
  length : (heap.object ref).length.isSome = true

structure IsGroup (realm : Realm ν) (heap : Heap ν) (layout : Layout) (filter : Bytes)
    (ref : Nat) : Prop where
  isArray : IsArray realm heap ref
  role : layout.role ref = (filter, none)
  own : ∀ category, (heap.object ref).own category = (layout.series filter category).map link

structure IsSeries (realm : Realm ν) (heap : Heap ν) (layout : Layout)
    (contents : List (Value ν)) (filter category : Bytes) (ref : Nat) : Prop where
  isArray : IsArray realm heap ref
  role : layout.role ref = (filter, some category)
  holds : Holds heap ref contents
  own : (heap.object ref).own (ascii "push") = none
  grouped : (layout.group filter).isSome = true

def appendTo (contents : Bytes → Bytes → List (Value ν)) (filter category : Bytes)
    (value : Value ν) : Bytes → Bytes → List (Value ν) :=
  fun filter' category' =>
    if filter' = filter ∧ category' = category then contents filter' category' ++ [value]
    else contents filter' category'

structure Grid (realm : Realm ν) (heap : Heap ν) (layout : Layout)
    (contents : Bytes → Bytes → List (Value ν)) : Prop where
  allocated : realm.heap.size < heap.size
  builtin : ∀ {ref}, ref < realm.heap.size → heap.object ref = realm.heap.object ref
  data : heap.object realm.heap.size =
    { realm.plainObject with own := fun filter => (layout.group filter).map link }
  group : ∀ {filter ref}, layout.group filter = some ref → IsGroup realm heap layout filter ref
  series : ∀ {filter category ref}, layout.series filter category = some ref →
    IsSeries realm heap layout (contents filter category) filter category ref

/-! ### Reading -/

private theorem find_builtin {heap : Heap ν}
    (builtin : ∀ {ref}, ref < realm.heap.size → heap.object ref = realm.heap.object ref)
    {chain : List Nat} (linked : Linked realm.heap chain) (name : Bytes) :
    heap.find name chain = realm.heap.find name chain := by
  induction chain with
  | nil => rfl
  | cons ref rest ih =>
      rcases linked with ⟨allocated, -, linked⟩
      rw [Heap.find_cons, Heap.find_cons, builtin allocated, ih linked]

private theorem decimal_ne_length (index : Nat) : decimal index ≠ ascii "length" := by
  intro same
  have digits : (108 : Byte) ∉ decimal index := notMem_decimal rfl index
  rw [same] at digits
  exact digits (by decide)

namespace Grid

variable {heap : Heap ν} {layout : Layout} {contents : Bytes → Bytes → List (Value ν)}

theorem data_length (grid : Grid realm heap layout contents) :
    (heap.object realm.heap.size).length = none := by
  rw [grid.data]
  rfl

private theorem lookup_data (grid : Grid realm heap layout contents) {filter : Bytes}
    (free : ¬ realm.PlainInherits filter) :
    heap.lookup realm.heap.size filter = (layout.group filter).map link := by
  have inherited : realm.heap.find filter [realm.objectPrototype] = none := by
    simpa [PlainInherits] using free
  rw [Heap.lookup, Heap.find_cons, Object.ownProperty_of_none grid.data_length, grid.data]
  change ((layout.group filter).map link).or (heap.find filter [realm.objectPrototype]) = _
  rw [find_builtin grid.builtin realm.linked_objectPrototype, inherited, Option.or_none]

private theorem lookup_array (grid : Grid realm heap layout contents) {ref : Nat}
    (isArray : IsArray realm heap ref) {name : Bytes} (noLength : name ≠ ascii "length") :
    heap.lookup ref name = ((heap.object ref).own name).or
      (realm.heap.find name [realm.arrayPrototype, realm.objectPrototype]) := by
  rw [Heap.lookup, Heap.find_cons, Object.ownProperty_of_ne _ noLength, isArray.chain,
    find_builtin grid.builtin realm.linked_arrayPrototype]

private theorem lookup_group (grid : Grid realm heap layout contents) {filter category : Bytes}
    {ref : Nat} (found : layout.group filter = some ref) (noLength : category ≠ ascii "length")
    (free : ¬ realm.ArrayInherits category) :
    heap.lookup ref category = (layout.series filter category).map link := by
  have isGroup := grid.group found
  have inherited :
      realm.heap.find category [realm.arrayPrototype, realm.objectPrototype] = none := by
    simpa [ArrayInherits] using free
  rw [grid.lookup_array isGroup.isArray noLength, isGroup.own, inherited, Option.or_none]

theorem get_data (grid : Grid realm heap layout contents) {filter : Bytes} {ref : Nat}
    (free : ¬ realm.PlainInherits filter) (found : layout.group filter = some ref) :
    realm.get heap (.object realm.heap.size) filter = .ok (.object ref) := by
  have read : heap.lookup realm.heap.size filter = some (.value (.object ref) true) := by
    rw [grid.lookup_data free, found]
    rfl
  exact realm.get_of_lookup grid.allocated read

theorem get_group (grid : Grid realm heap layout contents) {filter category : Bytes}
    {ofFilter ref : Nat} (noLength : category ≠ ascii "length")
    (free : ¬ realm.ArrayInherits category) (group : layout.group filter = some ofFilter)
    (found : layout.series filter category = some ref) :
    realm.get heap (.object ofFilter) category = .ok (.object ref) := by
  have read : heap.lookup ofFilter category = some (.value (.object ref) true) := by
    rw [grid.lookup_group group noLength free, found]
    rfl
  exact realm.get_of_lookup (grid.group group).isArray.allocated read

theorem get_length (grid : Grid realm heap layout contents) {filter category : Bytes} {ref : Nat}
    (found : layout.series filter category = some ref) :
    realm.get heap (.object ref) (ascii "length") =
      .ok (.number (contents filter category).length) := by
  have isSeries := grid.series found
  have read : heap.lookup ref (ascii "length") =
      some (.value (.number (contents filter category).length) true) := by
    rw [Heap.lookup, Heap.find_cons, Object.ownProperty_length isSeries.holds.length]
    rfl
  exact realm.get_of_lookup isSeries.isArray.allocated read

theorem get_push (grid : Grid realm heap layout contents) {filter category : Bytes} {ref : Nat}
    (found : layout.series filter category = some ref) :
    realm.get heap (.object ref) (ascii "push") = .ok (.object realm.pushFunction) := by
  have isSeries := grid.series found
  obtain ⟨writable, own⟩ := realm.arrayPrototype_push
  have read : heap.lookup ref (ascii "push") =
      some (.value (.object realm.pushFunction) writable) := by
    rw [grid.lookup_array isSeries.isArray realm.plainName_push.noLength, isSeries.own,
      Option.none_or, Heap.find_cons, own]
    rfl
  exact realm.get_of_lookup isSeries.isArray.allocated read

theorem get_element (grid : Grid realm heap layout contents) {filter category : Bytes} {ref : Nat}
    (found : layout.series filter category = some ref) {index : Nat} {value : Value ν}
    (element : (contents filter category)[index]? = some value) :
    realm.get heap (.object ref) (decimal index) = .ok value := by
  have isSeries := grid.series found
  have read : heap.lookup ref (decimal index) = some (.value value true) := by
    rw [grid.lookup_array isSeries.isArray (decimal_ne_length index),
      isSeries.holds.element element]
    rfl
  exact realm.get_of_lookup isSeries.isArray.allocated read

end Grid

private theorem IsArray.frame {heap heap' : Heap ν} {ref : Nat}
    (same : heap'.object ref = heap.object ref) (size : heap.size ≤ heap'.size)
    (isArray : IsArray realm heap ref) : IsArray realm heap' ref where
  above := isArray.above
  allocated := Nat.lt_of_lt_of_le isArray.allocated size
  chain := by rw [same, isArray.chain]
  length := by rw [same, isArray.length]

private theorem Holds.frame {heap heap' : Heap ν} {ref : Nat} {values : List (Value ν)}
    (same : heap'.object ref = heap.object ref) (holds : Holds heap ref values) :
    Holds heap' ref values where
  length := by rw [same, holds.length]
  element found := by rw [same, holds.element found]

private theorem IsGroup.frame {heap heap' : Heap ν} {layout layout' : Layout} {filter : Bytes}
    {ref : Nat} (same : heap'.object ref = heap.object ref) (size : heap.size ≤ heap'.size)
    (role : layout'.role ref = layout.role ref)
    (series : ∀ category, layout'.series filter category = layout.series filter category)
    (isGroup : IsGroup realm heap layout filter ref) : IsGroup realm heap' layout' filter ref where
  isArray := isGroup.isArray.frame same size
  role := role.trans isGroup.role
  own category := by rw [same, isGroup.own, series]

private theorem IsSeries.frame {heap heap' : Heap ν} {layout layout' : Layout}
    {contents : List (Value ν)} {filter category : Bytes} {ref : Nat}
    (same : heap'.object ref = heap.object ref) (size : heap.size ≤ heap'.size)
    (role : layout'.role ref = layout.role ref)
    (grouped : (layout'.group filter).isSome = true)
    (isSeries : IsSeries realm heap layout contents filter category ref) :
    IsSeries realm heap' layout' contents filter category ref where
  isArray := isSeries.isArray.frame same size
  role := role.trans isSeries.role
  holds := isSeries.holds.frame same
  own := by rw [same, isSeries.own]
  grouped := grouped

private theorem isArray_fresh {heap : Heap ν} (size : realm.heap.size < heap.size)
    {heap' : Heap ν} (object : heap'.object heap.size = realm.emptyArray)
    (grown : heap.size < heap'.size) : IsArray realm heap' heap.size where
  above := size
  allocated := grown
  chain := by rw [object]; rfl
  length := by rw [object]; rfl

private theorem holds_empty {heap : Heap ν} {ref : Nat}
    (object : heap.object ref = realm.emptyArray) :
    Holds heap ref [] where
  length := by rw [object]; rfl
  element found := by cases found

namespace Grid

variable {heap : Heap ν} {layout : Layout} {contents : Bytes → Bytes → List (Value ν)}

theorem group_ne_series (grid : Grid realm heap layout contents) {filter filter' category : Bytes}
    {ref ref' : Nat} (group : layout.group filter = some ref)
    (series : layout.series filter' category = some ref') : ref ≠ ref' := by
  intro same
  have role := (grid.group group).role
  rw [same, (grid.series series).role] at role
  cases role

theorem group_injective (grid : Grid realm heap layout contents) {filter filter' : Bytes}
    {ref : Nat} (group : layout.group filter = some ref)
    (group' : layout.group filter' = some ref) :
    filter = filter' := by
  have role := (grid.group group).role
  rw [(grid.group group').role] at role
  cases role
  rfl

theorem series_injective (grid : Grid realm heap layout contents)
    {filter filter' category category' : Bytes} {ref : Nat}
    (series : layout.series filter category = some ref)
    (series' : layout.series filter' category' = some ref) :
    filter = filter' ∧ category = category' := by
  have role := (grid.series series).role
  rw [(grid.series series').role] at role
  cases role
  exact ⟨rfl, rfl⟩

private theorem no_series (grid : Grid realm heap layout contents) {filter : Bytes}
    (none : layout.group filter = none) (category : Bytes) :
    layout.series filter category = .none := by
  cases found : layout.series filter category with
  | none => rfl
  | some ref =>
      have grouped := (grid.series found).grouped
      rw [none] at grouped
      cases grouped

private theorem addGroup (grid : Grid realm heap layout contents) {filter : Bytes}
    (new : layout.group filter = none) :
    Grid realm
      ((heap.alloc realm.emptyArray).set realm.heap.size
        ((heap.object realm.heap.size).putArray filter heap.size))
      (layout.addGroup filter heap.size) contents := by
  have size := grid.allocated
  have grow : heap.size ≤ heap.size + 1 := Nat.le_succ _
  have fresh := heap.alloc_set_object_size size realm.emptyArray
    ((heap.object realm.heap.size).putArray filter heap.size)
  constructor
  · exact Nat.lt_succ_of_lt size
  · intro ref below
    rw [heap.alloc_set_object_of_ne (Nat.ne_of_lt below) (Nat.lt_trans below size),
      grid.builtin below]
  · rw [Heap.set_object_self, Object.putArray_of_plain grid.data_length, grid.data]
    unfold Object.write
    congr 1
    funext other
    by_cases same : other = filter
    · subst same
      rw [Function.update_self, Layout.addGroup_group_self]
      rfl
    · rw [Function.update_of_ne same, Layout.addGroup_group_of_ne _ same]
  · intro other ref found
    by_cases same : other = filter
    · subst same
      rw [Layout.addGroup_group_self, Option.some.injEq] at found
      subst found
      refine ⟨isArray_fresh size fresh (Nat.lt_succ_self _), layout.addGroup_role_self, ?_⟩
      intro category
      rw [fresh]
      change none = (layout.series other category).map link
      rw [grid.no_series new]
      rfl
    · rw [Layout.addGroup_group_of_ne _ same] at found
      have isGroup := grid.group found
      have old := isGroup.isArray
      apply isGroup.frame
      · exact heap.alloc_set_object_of_ne (Nat.ne_of_gt old.above) old.allocated _ _
      · exact grow
      · exact layout.addGroup_role_of_ne (Nat.ne_of_lt old.allocated)
      · exact fun _ => rfl
  · intro other category ref found
    have isSeries := grid.series found
    have old := isSeries.isArray
    apply isSeries.frame
    · exact heap.alloc_set_object_of_ne (Nat.ne_of_gt old.above) old.allocated _ _
    · exact grow
    · exact layout.addGroup_role_of_ne (Nat.ne_of_lt old.allocated)
    · by_cases same : other = filter
      · rw [same, Layout.addGroup_group_self]
        rfl
      · rw [Layout.addGroup_group_of_ne _ same]
        exact isSeries.grouped

theorem ensureFilter (grid : Grid realm heap layout contents) {filter : Bytes}
    (free : ¬ realm.PlainInherits filter) :
    ∃ heap' layout' ref,
      realm.ensureArray heap (.object realm.heap.size) filter =
        .ok ((layout.group filter).isNone, heap') ∧
      Grid realm heap' layout' contents ∧ layout'.group filter = some ref ∧
      (∀ other, other ≠ filter → layout'.group other = layout.group other) ∧
      layout'.series = layout.series := by
  cases found : layout.group filter with
  | some ref =>
      refine ⟨heap, layout, ref, ?_, grid, found, fun _ _ => rfl, rfl⟩
      exact realm.ensureArray_of_truthy (grid.get_data free found) rfl
  | none =>
      refine ⟨_, layout.addGroup filter heap.size, heap.size, ?_, grid.addGroup found,
        layout.addGroup_group_self, fun _ => layout.addGroup_group_of_ne, rfl⟩
      apply realm.ensureArray_of_missing grid.allocated
      rw [grid.lookup_data free, found]
      rfl

private theorem addSeries (grid : Grid realm heap layout contents) {filter category : Bytes}
    {ofFilter : Nat} (group : layout.group filter = some ofFilter)
    (noLength : category ≠ ascii "length") (empty : contents filter category = []) :
    Grid realm
      ((heap.alloc realm.emptyArray).set ofFilter
        ((heap.object ofFilter).putArray category heap.size))
      (layout.addSeries filter category heap.size) contents := by
  have size := grid.allocated
  have target := grid.group group
  have grow : heap.size ≤ heap.size + 1 := Nat.le_succ _
  have fresh := heap.alloc_set_object_size target.isArray.allocated realm.emptyArray
    ((heap.object ofFilter).putArray category heap.size)
  constructor
  · exact Nat.lt_succ_of_lt size
  · intro ref below
    rw [heap.alloc_set_object_of_ne (Nat.ne_of_lt (Nat.lt_trans below target.isArray.above))
      (Nat.lt_trans below size), grid.builtin below]
  · rw [heap.alloc_set_object_of_ne (Nat.ne_of_lt target.isArray.above) size, grid.data]
    rfl
  · intro other ref found
    have isGroup := grid.group found
    have old := isGroup.isArray
    by_cases same : ref = ofFilter
    · subst same
      have filters := grid.group_injective found group
      subst filters
      refine ⟨⟨old.above, Nat.lt_succ_of_lt old.allocated, ?_, ?_⟩, ?_, ?_⟩
      · rw [Heap.set_object_self, Object.putArray_chain, old.chain]
      · rw [Heap.set_object_self, Object.putArray_length_isSome, old.length]
      · rw [Layout.addSeries_role_of_ne _ (Nat.ne_of_lt old.allocated), isGroup.role]
      · intro category'
        rw [Heap.set_object_self, Object.putArray_own noLength]
        by_cases named : category' = category
        · subst named
          rw [Object.write_own_self, Layout.addSeries_series_self]
          rfl
        · rw [Object.write_own_of_ne _ named, isGroup.own, Layout.addSeries_series_of_ne]
          exact fun both => named both.2
    · apply isGroup.frame
      · exact heap.alloc_set_object_of_ne same old.allocated _ _
      · exact grow
      · exact layout.addSeries_role_of_ne (Nat.ne_of_lt old.allocated)
      · intro category'
        apply layout.addSeries_series_of_ne
        intro both
        rw [both.1] at found
        exact same (Option.some.inj (found.symm.trans group))
  · intro other category' ref found
    by_cases here : other = filter ∧ category' = category
    · rw [here.1, here.2, Layout.addSeries_series_self, Option.some.injEq] at found
      subst found
      rw [here.1, here.2]
      refine ⟨isArray_fresh size fresh (Nat.lt_succ_self _), layout.addSeries_role_self, ?_, ?_, ?_⟩
      · rw [empty]
        exact holds_empty fresh
      · rw [fresh]
        rfl
      · exact Option.isSome_of_eq_some group
    · rw [Layout.addSeries_series_of_ne _ here] at found
      have isSeries := grid.series found
      have old := isSeries.isArray
      apply isSeries.frame
      · exact heap.alloc_set_object_of_ne (grid.group_ne_series group found).symm old.allocated _ _
      · exact grow
      · exact layout.addSeries_role_of_ne (Nat.ne_of_lt old.allocated)
      · exact isSeries.grouped

theorem ensureCategory (grid : Grid realm heap layout contents) {filter category : Bytes}
    {ofFilter : Nat} (group : layout.group filter = some ofFilter)
    (noLength : category ≠ ascii "length") (free : ¬ realm.ArrayInherits category)
    (empty : layout.series filter category = none → contents filter category = []) :
    ∃ created heap' layout' ref,
      realm.ensureArray heap (.object ofFilter) category = .ok (created, heap') ∧
      Grid realm heap' layout' contents ∧ layout'.group = layout.group ∧
      layout'.series filter category = some ref ∧
      ∀ other other', ¬ (other = filter ∧ other' = category) →
        layout'.series other other' = layout.series other other' := by
  cases found : layout.series filter category with
  | some ref =>
      refine ⟨false, heap, layout, ref, ?_, grid, rfl, found, fun _ _ _ => rfl⟩
      exact realm.ensureArray_of_truthy (grid.get_group noLength free group found) rfl
  | none =>
      refine ⟨true, _, layout.addSeries filter category heap.size, heap.size, ?_,
        grid.addSeries group noLength (empty found), rfl, layout.addSeries_series_self,
        fun _ _ => layout.addSeries_series_of_ne⟩
      apply realm.ensureArray_of_missing (grid.group group).isArray.allocated
      rw [grid.lookup_group group noLength free, found]
      rfl

private theorem holds_append {heap : Heap ν} {ref : Nat} {values : List (Value ν)}
    (holds : Holds heap ref values) (value : Value ν) :
    Holds (heap.set ref ((heap.object ref).append values.length value)) ref
      (values ++ [value]) where
  length := by rw [Heap.set_object_self, Object.append_length, List.length_append]; rfl
  element {index element} found := by
    rw [Heap.set_object_self]
    by_cases last : index = values.length
    · subst last
      rw [List.getElem?_append_right (Nat.le_refl _), Nat.sub_self] at found
      cases found
      exact Object.write_own_self _ _ _
    · have bound : index < (values ++ [value]).length := (List.getElem?_eq_some_iff.mp found).1
      rw [List.length_append, List.length_singleton] at bound
      rw [List.getElem?_append_left (by omega)] at found
      rw [Object.append_own_of_ne, holds.element found]
      intro same
      exact last (decimal_injective same)

theorem push (grid : Grid realm heap layout contents) {filter category : Bytes} {ref : Nat}
    (found : layout.series filter category = some ref) (value : Value ν) :
    ∃ heap', realm.push heap (.object ref) value = .ok heap' ∧
      Grid realm heap' layout (appendTo contents filter category value) := by
  have target := grid.series found
  refine ⟨_, realm.push_of_array value target.holds.length (grid.get_push found), ?_⟩
  have frame : ∀ {other}, other ≠ ref →
      (heap.set ref ((heap.object ref).append (contents filter category).length value)).object
        other = heap.object other :=
    fun different => heap.set_object_of_ne different _
  constructor
  · exact grid.allocated
  · intro other below
    rw [frame (Nat.ne_of_lt (Nat.lt_trans below target.isArray.above)), grid.builtin below]
  · rw [frame (Nat.ne_of_lt target.isArray.above), grid.data]
  · intro other ofFilter group
    apply (grid.group group).frame
    · exact frame (grid.group_ne_series group found)
    · exact Nat.le_refl _
    · rfl
    · exact fun _ => rfl
  · intro other category' ref' found'
    have isSeries := grid.series found'
    unfold appendTo
    by_cases here : other = filter ∧ category' = category
    · rw [if_pos here]
      rw [here.1, here.2, found, Option.some.injEq] at found'
      subst found'
      refine ⟨⟨target.isArray.above, target.isArray.allocated, ?_, ?_⟩, ?_, ?_, ?_,
        isSeries.grouped⟩
      · rw [Heap.set_object_self, Object.append_chain, target.isArray.chain]
      · rw [Heap.set_object_self, Object.append_length]
        rfl
      · exact isSeries.role
      · rw [here.1, here.2]
        exact holds_append target.holds value
      · rw [Heap.set_object_self, Object.append_own_of_ne _ (realm.plainName_push.noIndex _),
          target.own]
    · rw [if_neg here]
      apply isSeries.frame
      · apply frame
        intro same
        subst same
        exact here (grid.series_injective found' found)
      · exact Nat.le_refl _
      · rfl
      · exact isSeries.grouped

end Grid

end Packetpig.MultipleTimeSeries
