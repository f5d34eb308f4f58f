/-
Plain objects of JavaScript that are used as dictionaries: besides their own
entries they have the properties that every object inherits.
-/

import Packetpig.Library.Dictionary
import Packetpig.Library.JsObject

namespace Packetpig.Js.PlainObject

open Text Dictionary

/-- What `object[name]` meets with. -/
inductive Found (ν α : Type) where
  | own (value : α)
  | inherited (property : Property ν)
  | missing

variable {ν α : Type} (realm : Realm ν)

def find (entries : List (Bytes × α)) (name : Bytes) : Found ν α :=
  match get entries name with
  | some value => .own value
  | none =>
      match realm.heap.find name [realm.objectPrototype] with
      | some property => .inherited property
      | none => .missing

/-- `object[name] = value` for a value that is no object. A property that is not
writable stays as it is, and `__proto__` takes only objects. -/
def put (entries : List (Bytes × α)) (entry : Bytes × α) :
    Except Exception (List (Bytes × α)) :=
  match find realm entries entry.1 with
  | .inherited .throws => .error .typeError
  | .inherited .prototype => .ok entries
  | .inherited (.value _ false) => .ok entries
  | _ => .ok (assign entries entry)

variable {realm}

theorem find_of_free {name : Bytes} (free : ¬ realm.PlainInherits name)
    (entries : List (Bytes × α)) :
    find realm entries name =
      match get entries name with
      | some value => .own value
      | none => .missing := by
  have nothing : realm.heap.find name [realm.objectPrototype] = none := by
    rwa [Realm.PlainInherits, Option.not_isSome_iff_eq_none] at free
  rw [find, nothing]

theorem put_of_free {entry : Bytes × α} (free : ¬ realm.PlainInherits entry.1)
    (entries : List (Bytes × α)) : put realm entries entry = .ok (assign entries entry) := by
  rw [put, find_of_free free]
  cases get entries entry.1 with
  | none => rfl
  | some value => rfl

theorem fill_of_free {assignments : List (Bytes × α)}
    (free : ∀ entry ∈ assignments, ¬ realm.PlainInherits entry.1) :
    assignments.foldlM (put realm) [] = .ok (ofAssignments assignments) := by
  have filled : ∀ entries : List (Bytes × α),
      assignments.foldlM (put realm) entries = .ok (assignments.foldl assign entries) := by
    induction assignments with
    | nil => exact fun entries => rfl
    | cons entry assignments ih =>
        intro entries
        obtain ⟨here, later⟩ := List.forall_mem_cons.mp free
        rw [List.foldlM_cons, put_of_free here]
        exact ih later _
  exact filled []

end Packetpig.Js.PlainObject
