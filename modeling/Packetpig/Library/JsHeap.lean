/-
What reading and writing properties does to a heap of JavaScript objects: each
operation by cases, what stays as it was, and what is inherited throughout.
-/

import Packetpig.Library.Fallible
import Packetpig.Library.JsObject

namespace Packetpig.Js

open Text

variable {ν : Type}

theorem decimal_of_arrayIndex {name : Bytes} {index : Nat} (read : arrayIndex name = some index) :
    decimal index = name := by
  unfold arrayIndex at read
  dsimp only at read
  split at read
  · rename_i spelled
    rw [← Option.some.inj read]
    exact spelled.1
  · cases read

theorem arrayIndex_eq_none {name : Bytes} (noIndex : ∀ index, name ≠ decimal index) :
    arrayIndex name = none := by
  cases read : arrayIndex name with
  | none => rfl
  | some index => exact absurd (decimal_of_arrayIndex read).symm (noIndex index)

namespace Object

theorem ownProperty_of_ne (object : Object ν) {name : Bytes} (different : name ≠ ascii "length") :
    object.ownProperty name = object.own name :=
  if_neg different

theorem ownProperty_of_none {object : Object ν} (noArray : object.length = none) (name : Bytes) :
    object.ownProperty name = object.own name := by
  unfold ownProperty
  rw [noArray]
  exact ite_self _

theorem ownProperty_length {object : Object ν} {length : Nat}
    (isArray : object.length = some length) :
    object.ownProperty (ascii "length") = some (.value (.number length) true) := by
  unfold ownProperty
  rw [if_pos rfl, isArray]

@[simp] theorem write_length (object : Object ν) (name : Bytes) (value : Value ν) :
    (object.write name value).length = object.length := rfl

@[simp] theorem write_own_self (object : Object ν) (name : Bytes) (value : Value ν) :
    (object.write name value).own name = some (.value value true) :=
  Function.update_self _ _ _

theorem write_own_of_ne (object : Object ν) {name other : Bytes} (different : other ≠ name)
    (value : Value ν) : (object.write name value).own other = object.own other :=
  Function.update_of_ne different _ _

@[simp] theorem append_chain (object : Object ν) (length : Nat) (value : Value ν) :
    (object.append length value).chain = object.chain := rfl

@[simp] theorem append_length (object : Object ν) (length : Nat) (value : Value ν) :
    (object.append length value).length = some (length + 1) := rfl

theorem append_own_of_ne (object : Object ν) {length : Nat} {name : Bytes}
    (different : name ≠ decimal length) (value : Value ν) :
    (object.append length value).own name = object.own name :=
  write_own_of_ne object different value

theorem putArray_of_plain {object : Object ν} (noArray : object.length = none) (name : Bytes)
    (array : Nat) : object.putArray name array = object.write name (.object array) := by
  unfold putArray
  rw [noArray]

@[simp] theorem putArray_chain (object : Object ν) (name : Bytes) (array : Nat) :
    (object.putArray name array).chain = object.chain := by
  unfold putArray
  split
  · rfl
  · split
    · rfl
    · split
      · rfl
      · rfl

@[simp] theorem putArray_length_isSome (object : Object ν) (name : Bytes) (array : Nat) :
    (object.putArray name array).length.isSome = object.length.isSome := by
  unfold putArray
  split
  · rfl
  · rename_i isArray
    rw [isArray]
    split
    · rfl
    · split
      · rfl
      · rw [write_length, isArray]

theorem putArray_own {object : Object ν} {name : Bytes} (different : name ≠ ascii "length")
    (array : Nat) : (object.putArray name array).own = (object.write name (.object array)).own := by
  unfold putArray
  split
  · rfl
  · rw [if_neg different]
    split
    · rfl
    · rfl

theorem putArray_own_of_ne (object : Object ν) {name other : Bytes} (different : other ≠ name)
    (noIndex : ∀ index, other ≠ decimal index) (array : Nat) :
    (object.putArray name array).own other = object.own other := by
  by_cases isLength : name = ascii "length"
  · unfold putArray
    split
    · exact write_own_of_ne object different _
    · rw [if_pos isLength]
      simp only [arrayIndex_eq_none noIndex, Option.isSome_none, Bool.false_eq_true, if_false]
  · rw [putArray_own isLength]
    exact write_own_of_ne object different _

end Object

namespace Heap

@[simp] theorem alloc_size (heap : Heap ν) (object : Object ν) :
    (heap.alloc object).size = heap.size + 1 := rfl

@[simp] theorem alloc_object_self (heap : Heap ν) (object : Object ν) :
    (heap.alloc object).object heap.size = object :=
  Function.update_self _ _ _

theorem alloc_object_of_lt (heap : Heap ν) (object : Object ν) {ref : Nat}
    (allocated : ref < heap.size) : (heap.alloc object).object ref = heap.object ref :=
  Function.update_of_ne (Nat.ne_of_lt allocated) _ _

@[simp] theorem set_object_self (heap : Heap ν) (ref : Nat) (object : Object ν) :
    (heap.set ref object).object ref = object :=
  Function.update_self _ _ _

theorem set_object_of_ne (heap : Heap ν) {ref other : Nat} (different : other ≠ ref)
    (object : Object ν) : (heap.set ref object).object other = heap.object other :=
  Function.update_of_ne different _ _

theorem alloc_set_object_of_ne (heap : Heap ν) {ref other : Nat} (different : other ≠ ref)
    (allocated : other < heap.size) (new object : Object ν) :
    ((heap.alloc new).set ref object).object other = heap.object other := by
  rw [set_object_of_ne _ different, alloc_object_of_lt _ _ allocated]

theorem alloc_set_object_size (heap : Heap ν) {ref : Nat} (allocated : ref < heap.size)
    (new object : Object ν) : ((heap.alloc new).set ref object).object heap.size = new := by
  rw [set_object_of_ne _ (Nat.ne_of_gt allocated), alloc_object_self]

theorem find_cons (heap : Heap ν) (name : Bytes) (ref : Nat) (rest : List Nat) :
    heap.find name (ref :: rest) =
      ((heap.object ref).ownProperty name).or (heap.find name rest) := by
  unfold find
  rw [List.findSome?_cons]
  cases (heap.object ref).ownProperty name with
  | none => rfl
  | some property => rfl

end Heap

namespace Realm

variable (realm : Realm ν)

theorem get_object {heap : Heap ν} {ref : Nat} (allocated : ref < heap.size) (name : Bytes) :
    realm.get heap (.object ref) name = realm.read heap (.object ref) (heap.lookup ref name) :=
  if_pos allocated

theorem lt_of_get {heap : Heap ν} {ref : Nat} {name : Bytes} {value : Value ν}
    (read : realm.get heap (.object ref) name = .ok value) : ref < heap.size := by
  by_contra outside
  have failed : realm.get heap (.object ref) name = .error .typeError := if_neg outside
  rw [failed] at read
  cases read

theorem get_of_lookup {heap : Heap ν} {ref : Nat} (allocated : ref < heap.size) {name : Bytes}
    {value : Value ν} {writable : Bool}
    (found : heap.lookup ref name = some (.value value writable)) :
    realm.get heap (.object ref) name = .ok value := by
  rw [get_object realm allocated, found]
  rfl

theorem get_of_missing {heap : Heap ν} {ref : Nat} (allocated : ref < heap.size) {name : Bytes}
    (missing : heap.lookup ref name = none) :
    realm.get heap (.object ref) name = .ok .undefined := by
  rw [get_object realm allocated, missing]
  rfl

theorem get_of_truthy {heap : Heap ν} {ref : Nat} (allocated : ref < heap.size) {name : Bytes}
    {property : Property ν} (found : heap.lookup ref name = some property)
    (truthy : property.Truthy) (inherits : (heap.object ref).chain ≠ []) :
    ∃ value, realm.get heap (.object ref) name = .ok value ∧ value.truthy = true := by
  rw [get_object realm allocated, found]
  cases property with
  | value content writable => exact ⟨content, rfl, truthy⟩
  | prototype =>
      obtain ⟨prototype, rest, chain⟩ := List.exists_cons_of_ne_nil inherits
      refine ⟨.object prototype, ?_, rfl⟩
      simp only [read, prototypeOf, chain]
  | throws => exact truthy.elim

theorem ensureArray_of_truthy {heap : Heap ν} {receiver value : Value ν} {name : Bytes}
    (read : realm.get heap receiver name = .ok value) (truthy : value.truthy = true) :
    realm.ensureArray heap receiver name = .ok (false, heap) := by
  unfold ensureArray
  rw [read]
  exact if_pos truthy

theorem ensureArray_of_missing {heap : Heap ν} {ref : Nat} (allocated : ref < heap.size)
    {name : Bytes} (missing : heap.lookup ref name = none) :
    realm.ensureArray heap (.object ref) name =
      .ok (true, (heap.alloc realm.emptyArray).set ref
        ((heap.object ref).putArray name heap.size)) := by
  have nothing : realm.lookup heap (.object ref) name = none := missing
  have assigned : realm.assignArray heap (.object ref) name =
      .ok ((heap.alloc realm.emptyArray).set ref ((heap.object ref).putArray name heap.size)) := by
    unfold assignArray
    rw [nothing]
  unfold ensureArray
  rw [realm.get_of_missing allocated missing, assigned]
  rfl

theorem push_of_array {heap : Heap ν} {ref length : Nat} (value : Value ν)
    (isArray : (heap.object ref).length = some length)
    (read : realm.get heap (.object ref) (ascii "push") = .ok (.object realm.pushFunction)) :
    realm.push heap (.object ref) value =
      .ok (heap.set ref ((heap.object ref).append length value)) := by
  unfold push
  rw [read]
  dsimp only [bind, Except.bind]
  rw [isArray]
  exact if_pos rfl

/-- All that `if (!receiver[name]) receiver[name] = []` can do to the heap. -/
inductive Ensured (heap : Heap ν) (receiver : Value ν) (name : Bytes) :
    Bool → Heap ν → Prop
  | present {value : Value ν} (read : realm.get heap receiver name = .ok value)
      (truthy : value.truthy = true) : Ensured heap receiver name false heap
  | ignored {value : Value ν} (read : realm.get heap receiver name = .ok value)
      (falsy : value.truthy = false) :
      Ensured heap receiver name true (heap.alloc realm.emptyArray)
  | written {ref : Nat} {value : Value ν} (object : receiver = .object ref)
      (allocated : ref < heap.size) (read : realm.get heap receiver name = .ok value)
      (readFalsy : value.truthy = false)
      (falsy : ∀ property, heap.lookup ref name = some property → ¬ property.Truthy) :
      Ensured heap receiver name true
        ((heap.alloc realm.emptyArray).set ref ((heap.object ref).putArray name heap.size))

private theorem ensured_of_assign {heap heap' : Heap ν} {receiver value : Value ν} {name : Bytes}
    (read : realm.get heap receiver name = .ok value) (falsy : value.truthy = false)
    (done : realm.assignArray heap receiver name = .ok heap') :
    realm.Ensured heap receiver name true heap' := by
  unfold assignArray at done
  dsimp only at done
  split at done
  · cases done
  · cases done
  · cases done
    exact .ignored read falsy
  · rename_i ref notPrototype notThrows notReadOnly
    cases done
    have allocated := realm.lt_of_get read
    refine .written rfl allocated read falsy ?_
    intro property found truthy
    rw [realm.get_object allocated, found] at read
    cases property with
    | value content writable =>
        cases read
        exact Bool.eq_false_iff.mp falsy truthy
    | prototype => exact notPrototype found
    | throws => exact notThrows found
  · cases done
    exact .ignored read falsy

theorem ensured_of_ok {heap heap' : Heap ν} {receiver : Value ν} {name : Bytes} {created : Bool}
    (done : realm.ensureArray heap receiver name = .ok (created, heap')) :
    realm.Ensured heap receiver name created heap' := by
  unfold ensureArray at done
  cases read : realm.get heap receiver name with
  | error exception =>
      rw [read] at done
      cases done
  | ok value =>
      rw [read] at done
      change (if value.truthy = true then _ else _) = _ at done
      by_cases truthy : value.truthy = true
      · rw [if_pos truthy] at done
        cases done
        exact .present read truthy
      · rw [if_neg truthy] at done
        cases assigned : realm.assignArray heap receiver name with
        | error exception =>
            rw [assigned] at done
            cases done
        | ok after =>
            rw [assigned] at done
            cases done
            exact realm.ensured_of_assign read (Bool.eq_false_iff.mpr truthy) assigned

theorem Ensured.not_created {heap heap' : Heap ν} {receiver value : Value ν} {name : Bytes}
    {created : Bool} (ensured : realm.Ensured heap receiver name created heap')
    (read : realm.get heap receiver name = .ok value) (truthy : value.truthy = true) :
    created = false := by
  have never : ∀ {other : Value ν}, realm.get heap receiver name = .ok other →
      other.truthy ≠ false := by
    intro other read'
    rw [read, Except.ok.injEq] at read'
    rw [← read', truthy]
    exact Bool.noConfusion
  cases ensured with
  | present => rfl
  | ignored read' falsy => exact absurd falsy (never read')
  | written _ _ read' falsy => exact absurd falsy (never read')

theorem pushed_of_ok {heap heap' : Heap ν} {receiver value : Value ν}
    (done : realm.push heap receiver value = .ok heap') :
    ∃ ref length, receiver = .object ref ∧ ref < heap.size ∧
      (heap.object ref).length = some length ∧
      heap' = heap.set ref ((heap.object ref).append length value) := by
  unfold push at done
  obtain ⟨method, read, done⟩ := bind_eq_ok done
  cases receiver with
  | object ref =>
      cases method with
      | object method =>
          dsimp only at done
          split at done
          · rename_i length isArray
            split at done
            · cases done
              exact ⟨ref, length, rfl, realm.lt_of_get read, isArray, rfl⟩
            · cases done
          · cases done
      | _ => cases done
  | _ => cases done

/-- Nothing is lost and no prototype changes, and what is new is empty arrays. -/
structure Grows (heap heap' : Heap ν) : Prop where
  size : heap.size ≤ heap'.size
  chain : ∀ {ref}, ref < heap.size → (heap'.object ref).chain = (heap.object ref).chain
  array : ∀ {ref}, ref < heap.size →
    (heap'.object ref).length.isSome = (heap.object ref).length.isSome
  fresh : ∀ {ref}, heap.size ≤ ref → ref < heap'.size → heap'.object ref = realm.emptyArray

/-- A name that stands for no element and no length. -/
structure PlainName (name : Bytes) : Prop where
  noLength : name ≠ ascii "length"
  noIndex : ∀ index, name ≠ decimal index

/-- Own properties of this name change only where nothing true is read under it. -/
def Keeps (name : Bytes) (heap heap' : Heap ν) : Prop :=
  ∀ {ref}, ref < heap.size → (heap'.object ref).own name = (heap.object ref).own name ∨
    ∀ property, heap.lookup ref name = some property → ¬ property.Truthy

theorem grows_alloc (heap : Heap ν) : realm.Grows heap (heap.alloc realm.emptyArray) where
  size := Nat.le_succ _
  chain allocated := by rw [heap.alloc_object_of_lt _ allocated]
  array allocated := by rw [heap.alloc_object_of_lt _ allocated]
  fresh {ref} new allocated := by
    have same : ref = heap.size := by
      rw [Heap.alloc_size] at allocated
      omega
    rw [same, Heap.alloc_object_self]

private theorem Grows.set {heap middle : Heap ν} (grows : realm.Grows heap middle) {ref : Nat}
    (allocated : ref < heap.size) {object : Object ν}
    (chain : object.chain = (heap.object ref).chain)
    (array : object.length.isSome = (heap.object ref).length.isSome) :
    realm.Grows heap (middle.set ref object) where
  size := grows.size
  chain {other} allocated' := by
    by_cases same : other = ref
    · rw [same, Heap.set_object_self, chain]
    · rw [Heap.set_object_of_ne _ same, grows.chain allocated']
  array {other} allocated' := by
    by_cases same : other = ref
    · rw [same, Heap.set_object_self, array]
    · rw [Heap.set_object_of_ne _ same, grows.array allocated']
  fresh {other} new allocated' := by
    rw [Heap.set_object_of_ne _ (by omega)]
    exact grows.fresh new allocated'

theorem Ensured.grows {heap heap' : Heap ν} {receiver : Value ν} {name : Bytes} {created : Bool}
    (ensured : realm.Ensured heap receiver name created heap') : realm.Grows heap heap' := by
  cases ensured with
  | present => exact ⟨Nat.le_refl _, fun _ => rfl, fun _ => rfl, fun new old => by omega⟩
  | ignored => exact realm.grows_alloc heap
  | written _ allocated =>
      exact Grows.set realm (realm.grows_alloc heap) allocated (Object.putArray_chain _ _ _)
        (Object.putArray_length_isSome _ _ _)

theorem Ensured.keeps {heap heap' : Heap ν} {receiver : Value ν} {name : Bytes} {created : Bool}
    (ensured : realm.Ensured heap receiver name created heap') {other : Bytes}
    (plain : PlainName other) : Keeps other heap heap' := by
  intro ref allocated
  cases ensured with
  | present => exact Or.inl rfl
  | ignored => exact Or.inl (by rw [heap.alloc_object_of_lt _ allocated])
  | @written receiverRef _ object here read readFalsy falsy =>
      by_cases same : ref = receiverRef
      · subst same
        rw [Heap.set_object_self]
        by_cases named : other = name
        · subst named
          exact Or.inr falsy
        · exact Or.inl (Object.putArray_own_of_ne _ named plain.noIndex _)
      · rw [Heap.set_object_of_ne _ same, heap.alloc_object_of_lt _ allocated]
        exact Or.inl rfl

theorem grows_of_push {heap heap' : Heap ν} {receiver value : Value ν}
    (done : realm.push heap receiver value = .ok heap') : realm.Grows heap heap' := by
  obtain ⟨ref, length, -, allocated, isArray, same⟩ := realm.pushed_of_ok done
  subst same
  have start : realm.Grows heap heap :=
    ⟨Nat.le_refl _, fun _ => rfl, fun _ => rfl, fun new old => by omega⟩
  exact Grows.set realm start allocated rfl (by rw [isArray]; rfl)

theorem keeps_of_push {heap heap' : Heap ν} {receiver value : Value ν}
    (done : realm.push heap receiver value = .ok heap') {name : Bytes} (plain : PlainName name) :
    Keeps name heap heap' := by
  intro other allocated
  obtain ⟨ref, length, -, -, isArray, same⟩ := realm.pushed_of_ok done
  subst same
  by_cases same : other = ref
  · subst same
    rw [Heap.set_object_self]
    exact Or.inl (Object.append_own_of_ne _ (plain.noIndex length) _)
  · rw [Heap.set_object_of_ne _ same]
    exact Or.inl rfl

/-! ### What is inherited -/

def Linked (heap : Heap ν) : List Nat → Prop
  | [] => True
  | ref :: rest => ref < heap.size ∧ (heap.object ref).chain = rest ∧ Linked heap rest

structure Inherits (heap : Heap ν) (chain : List Nat) (name : Bytes) : Prop where
  linked : Linked heap chain
  found : ∃ property, heap.find name chain = some property ∧ property.Truthy

variable {realm}

private theorem Linked.grow {heap heap' : Heap ν} (grows : realm.Grows heap heap')
    {chain : List Nat} (linked : Linked heap chain) : Linked heap' chain := by
  induction chain with
  | nil => trivial
  | cons ref rest ih =>
      rcases linked with ⟨allocated, chain, linked⟩
      exact ⟨Nat.lt_of_lt_of_le allocated grows.size, (grows.chain allocated).trans chain,
        ih linked⟩

theorem Inherits.step {heap heap' : Heap ν} {chain : List Nat} {name : Bytes}
    (plain : PlainName name) (grows : realm.Grows heap heap') (keeps : Keeps name heap heap')
    (inherits : Inherits heap chain name) : Inherits heap' chain name := by
  rcases inherits with ⟨linked, property, found, truthy⟩
  refine ⟨linked.grow grows, ?_⟩
  induction chain with
  | nil => cases found
  | cons ref rest ih =>
      rcases linked with ⟨allocated, chain, linked⟩
      have read : heap.lookup ref name = some property := by rw [Heap.lookup, chain, found]
      have same : (heap'.object ref).own name = (heap.object ref).own name :=
        (keeps allocated).resolve_right fun falsy => falsy property read truthy
      rw [Heap.find_cons, Object.ownProperty_of_ne _ plain.noLength] at found ⊢
      rw [same]
      cases own : (heap.object ref).own name with
      | some here =>
          rw [own] at found
          refine ⟨property, found, truthy⟩
      | none =>
          rw [own] at found
          exact ih linked found

theorem Inherits.own_none {heap heap' : Heap ν} {ref : Nat} {name : Bytes}
    (keeps : Keeps name heap heap') (plain : PlainName name) (allocated : ref < heap.size)
    (inherits : Inherits heap (heap.object ref).chain name)
    (none : (heap.object ref).own name = none) : (heap'.object ref).own name = .none := by
  rcases inherits with ⟨-, property, found, truthy⟩
  have read : heap.lookup ref name = some property := by
    rw [Heap.lookup, Heap.find_cons, Object.ownProperty_of_ne _ plain.noLength, none]
    exact found
  rw [(keeps allocated).resolve_right fun falsy => falsy property read truthy, none]

theorem Inherits.get_truthy (realm : Realm ν) {heap : Heap ν} {ref : Nat} {name : Bytes}
    (plain : PlainName name) (allocated : ref < heap.size)
    (inherits : Inherits heap (heap.object ref).chain name)
    (none : (heap.object ref).own name = none) :
    ∃ value, realm.get heap (.object ref) name = .ok value ∧ value.truthy = true := by
  rcases inherits with ⟨-, property, found, truthy⟩
  have read : heap.lookup ref name = some property := by
    rw [Heap.lookup, Heap.find_cons, Object.ownProperty_of_ne _ plain.noLength, none]
    exact found
  apply realm.get_of_truthy allocated read truthy
  intro nothing
  rw [nothing] at found
  cases found

private theorem find_alloc {heap : Heap ν} {chain : List Nat} (linked : Linked heap chain)
    (object : Object ν) (name : Bytes) :
    (heap.alloc object).find name chain = heap.find name chain := by
  induction chain with
  | nil => rfl
  | cons ref rest ih =>
      rcases linked with ⟨allocated, -, linked⟩
      rw [Heap.find_cons, Heap.find_cons, heap.alloc_object_of_lt _ allocated, ih linked]

private theorem Linked.alloc {heap : Heap ν} {chain : List Nat} (linked : Linked heap chain)
    (object : Object ν) : Linked (heap.alloc object) chain := by
  induction chain with
  | nil => trivial
  | cons ref rest ih =>
      rcases linked with ⟨allocated, chain, linked⟩
      refine ⟨Nat.lt_succ_of_lt allocated, ?_, ih linked⟩
      rw [heap.alloc_object_of_lt _ allocated, chain]

theorem Inherits.alloc {heap : Heap ν} {chain : List Nat} {name : Bytes}
    (inherits : Inherits heap chain name) (object : Object ν) :
    Inherits (heap.alloc object) chain name := by
  rcases inherits with ⟨linked, found⟩
  exact ⟨linked.alloc object, by rwa [find_alloc linked]⟩

variable (realm)

theorem linked_objectPrototype : Linked realm.heap [realm.objectPrototype] :=
  ⟨realm.objectPrototype_lt, realm.objectPrototype_chain, trivial⟩

theorem linked_arrayPrototype :
    Linked realm.heap [realm.arrayPrototype, realm.objectPrototype] :=
  ⟨realm.arrayPrototype_lt, realm.arrayPrototype_chain, realm.linked_objectPrototype⟩

theorem inherits_of_plainInherits {name : Bytes} (inherited : realm.PlainInherits name) :
    PlainName name ∧ Inherits realm.heap [realm.objectPrototype] name := by
  obtain ⟨property, found⟩ := Option.isSome_iff_exists.mp inherited
  have own : (realm.heap.object realm.objectPrototype).ownProperty name = some property := by
    rwa [Heap.find_cons, Heap.find, List.findSome?_nil, Option.or_none] at found
  obtain ⟨truthy, noLength, noIndex⟩ := realm.objectPrototype_truthy own
  exact ⟨⟨noLength, noIndex⟩, realm.linked_objectPrototype, property, found, truthy⟩

theorem inherits_of_arrayInherits {name : Bytes} (noLength : name ≠ ascii "length")
    (inherited : realm.ArrayInherits name) :
    PlainName name ∧ Inherits realm.heap [realm.arrayPrototype, realm.objectPrototype] name := by
  obtain ⟨property, found⟩ := Option.isSome_iff_exists.mp inherited
  cases own : (realm.heap.object realm.arrayPrototype).ownProperty name with
  | some here =>
      have same := found
      rw [Heap.find_cons, own, Option.some_or, Option.some.injEq] at same
      subst same
      obtain ⟨truthy, noIndex⟩ := realm.arrayPrototype_truthy noLength own
      exact ⟨⟨noLength, noIndex⟩, realm.linked_arrayPrototype, here, found, truthy⟩
  | none =>
      have later := found
      rw [Heap.find_cons, own, Option.none_or] at later
      obtain ⟨plain, -, property', found', truthy⟩ :=
        realm.inherits_of_plainInherits (Option.isSome_iff_exists.mpr ⟨property, later⟩)
      rw [later, Option.some.injEq] at found'
      subst found'
      exact ⟨plain, realm.linked_arrayPrototype, property, found, truthy⟩

theorem plainName_push (realm : Realm ν) : PlainName (ascii "push") := by
  obtain ⟨writable, found⟩ := realm.arrayPrototype_push
  have noLength : ascii "push" ≠ ascii "length" := by decide
  exact ⟨noLength, (realm.arrayPrototype_truthy noLength found).2⟩

end Realm

namespace Es5

def objectNames : List Bytes :=
  [ascii "constructor", ascii "toString", ascii "toLocaleString", ascii "valueOf",
    ascii "hasOwnProperty", ascii "isPrototypeOf", ascii "propertyIsEnumerable"]

def arrayNames : List Bytes :=
  [ascii "constructor", ascii "toString", ascii "toLocaleString", ascii "concat", ascii "join",
    ascii "pop", ascii "reverse", ascii "shift", ascii "slice", ascii "sort", ascii "splice",
    ascii "unshift", ascii "indexOf", ascii "lastIndexOf", ascii "every", ascii "some",
    ascii "forEach", ascii "map", ascii "filter", ascii "reduce", ascii "reduceRight"]

/-- One object stands for all functions but `push`. -/
def functions (names : List Bytes) (name : Bytes) : Option (Property ν) :=
  if names.contains name then some (.value (.object 4) true) else none

def heap : Heap ν where
  size := 5
  object
    | 0 =>
        { chain := []
          own := fun name =>
            if name = ascii "__proto__" then some .prototype else functions objectNames name
          length := none }
    | 1 =>
        { chain := [0]
          own := fun name =>
            if name = ascii "push" then some (.value (.object 3) true)
            else functions arrayNames name
          length := some 0 }
    | _ => { chain := [0], own := fun _ => none, length := none }

private theorem ne_decimal {name : Bytes} (letter : Byte) (member : letter ∈ name)
    (noDigit : isDigit 10 letter = false) (index : Nat) : name ≠ decimal index := by
  intro same
  rw [same] at member
  exact notMem_decimal noDigit index member

private theorem functions_spec {names : List Bytes} {name : Bytes} {property : Property ν}
    (found : functions names name = some property) :
    property.Truthy ∧ name ∈ names := by
  unfold functions at found
  split at found
  · rename_i member
    cases found
    exact ⟨rfl, List.contains_iff_mem.mp member⟩
  · cases found

private theorem ne_decimal_of_mem {names : List Bytes}
    (letters : (names.all fun name => name.any fun letter => !isDigit 10 letter) = true)
    {name : Bytes} (member : name ∈ names) (index : Nat) : name ≠ decimal index := by
  have lettered := List.all_eq_true.mp letters name member
  rw [List.any_eq_true] at lettered
  rcases lettered with ⟨letter, inName, noDigit⟩
  exact ne_decimal letter inName (by simpa using noDigit) index

def realm : Realm ν where
  heap := heap
  objectPrototype := 0
  arrayPrototype := 1
  numberPrototype := 2
  pushFunction := 3
  objectPrototype_lt := (by decide : 0 < 5)
  arrayPrototype_lt := (by decide : 1 < 5)
  objectPrototype_chain := rfl
  arrayPrototype_chain := rfl
  objectPrototype_length := rfl
  objectPrototype_truthy {name property} found := by
    rw [Object.ownProperty_of_none rfl] at found
    change (if name = ascii "__proto__" then _ else functions objectNames name) = _ at found
    split at found
    · rename_i same
      cases found
      rw [same]
      exact ⟨trivial, by decide, ne_decimal 95 (by decide) rfl⟩
    · obtain ⟨truthy, member⟩ := functions_spec found
      refine ⟨truthy, ?_, ne_decimal_of_mem (by decide) member⟩
      intro isLength
      rw [isLength] at member
      exact absurd member (by decide)
  arrayPrototype_truthy {name property} noLength found := by
    rw [Object.ownProperty_of_ne _ noLength] at found
    change (if name = ascii "push" then _ else functions arrayNames name) = _ at found
    split at found
    · rename_i same
      cases found
      rw [same]
      exact ⟨rfl, ne_decimal 112 (by decide) rfl⟩
    · obtain ⟨truthy, member⟩ := functions_spec found
      exact ⟨truthy, ne_decimal_of_mem (by decide) member⟩
  arrayPrototype_push := ⟨true, rfl⟩

end Es5

end Packetpig.Js
