/-
Computations that may fail: what a success says of the parts, and invariants of
folds over a list.
-/

import Mathlib.Logic.Basic

namespace Packetpig

theorem bind_eq_ok {α β ε : Type} {first : Except ε α} {next : α → Except ε β} {result : β}
    (done : first >>= next = .ok result) :
    ∃ value, first = .ok value ∧ next value = .ok result := by
  cases first with
  | error exception => cases done
  | ok value => exact ⟨value, rfl, done⟩

theorem map_eq_ok {α β ε : Type} {f : α → β} {first : Except ε α} {result : β}
    (done : f <$> first = .ok result) : ∃ value, first = .ok value ∧ f value = result := by
  cases first with
  | error exception => cases done
  | ok value => exact ⟨value, rfl, Except.ok.inj done⟩

theorem foldlM_invariant {α β ε : Type} {step : β → α → Except ε β} (Inv : List α → β → Prop)
    (preserved : ∀ seen state item after, Inv seen state → step state item = .ok after →
      Inv (seen ++ [item]) after)
    {items : List α} {state final : β} (start : Inv [] state)
    (done : items.foldlM step state = .ok final) : Inv items final := by
  have from_seen : ∀ seen state, Inv seen state → items.foldlM step state = .ok final →
      Inv (seen ++ items) final := by
    clear start done state
    induction items with
    | nil =>
        intro seen state start done
        cases done
        rwa [List.append_nil]
    | cons item items ih =>
        intro seen state start done
        rw [List.foldlM_cons] at done
        obtain ⟨middle, here, later⟩ := bind_eq_ok done
        have rest := ih (seen ++ [item]) middle (preserved seen state item middle start here) later
        rwa [List.append_assoc, List.singleton_append] at rest
  exact from_seen [] state start done

theorem foldlM_succeeds {α β ε : Type} {step : β → α → Except ε β} (Inv : List α → β → Prop)
    {items : List α}
    (succeeds : ∀ seen state item, item ∈ items → Inv seen state →
      ∃ after, step state item = .ok after ∧ Inv (seen ++ [item]) after)
    {state : β} (start : Inv [] state) :
    ∃ final, items.foldlM step state = .ok final ∧ Inv items final := by
  have from_seen : ∀ rest seen state, rest ⊆ items → Inv seen state →
      ∃ final, rest.foldlM step state = .ok final ∧ Inv (seen ++ rest) final := by
    intro rest
    induction rest with
    | nil =>
        intro seen state _ start
        refine ⟨state, rfl, ?_⟩
        rwa [List.append_nil]
    | cons item rest ih =>
        intro seen state inside start
        obtain ⟨after, here, kept⟩ :=
          succeeds seen state item (inside List.mem_cons_self) start
        obtain ⟨final, later, done⟩ :=
          ih (seen ++ [item]) after (List.subset_of_cons_subset inside) kept
        refine ⟨final, ?_, ?_⟩
        · rw [List.foldlM_cons, here]
          exact later
        · rwa [List.append_assoc, List.singleton_append] at done
  exact from_seen items [] state (List.Subset.refl items) start

theorem mapM_eq_ok {α β ε : Type} {f : α → Except ε β} {result : α → β} {items : List α}
    (succeeds : ∀ item ∈ items, f item = .ok (result item)) :
    items.mapM f = .ok (items.map result) := by
  induction items with
  | nil => rfl
  | cons item items ih =>
      obtain ⟨here, later⟩ := List.forall_mem_cons.mp succeeds
      rw [List.mapM_cons, here, ih later]
      rfl

theorem mapM_succeeds {α β ε : Type} {f : α → Except ε β} {items : List α}
    (succeeds : ∀ item ∈ items, ∃ result, f item = .ok result) :
    ∃ results, items.mapM f = .ok results := by
  induction items with
  | nil => exact ⟨[], rfl⟩
  | cons item items ih =>
      obtain ⟨⟨result, here⟩, later⟩ := List.forall_mem_cons.mp succeeds
      obtain ⟨results, rest⟩ := ih later
      refine ⟨result :: results, ?_⟩
      rw [List.mapM_cons, here, rest]
      rfl

theorem mapM_cons_eq_ok {α β ε : Type} {f : α → Except ε β} {item : α} {items : List α}
    {results : List β} (done : (item :: items).mapM f = .ok results) :
    ∃ result rest, f item = .ok result ∧ items.mapM f = .ok rest ∧ results = result :: rest := by
  rw [List.mapM_cons] at done
  obtain ⟨result, here, later⟩ := bind_eq_ok done
  obtain ⟨rest, others, same⟩ := bind_eq_ok later
  exact ⟨result, rest, here, others, (Except.ok.inj same).symm⟩

theorem mapM_cons_of_ok {α β ε : Type} {f : α → Except ε β} {item : α} {items : List α}
    {result : β} {rest : List β} (here : f item = .ok result) (others : items.mapM f = .ok rest) :
    (item :: items).mapM f = .ok (result :: rest) := by
  rw [List.mapM_cons, here, others]
  rfl

theorem mapM_perm {α β ε : Type} {f : α → Except ε β} {items items' : List α}
    (order : items.Perm items') {results : List β} (done : items.mapM f = .ok results) :
    ∃ results', items'.mapM f = .ok results' ∧ results.Perm results' := by
  induction order generalizing results with
  | nil => exact ⟨results, done, List.Perm.refl results⟩
  | cons item _ ih =>
      obtain ⟨result, rest, here, others, rfl⟩ := mapM_cons_eq_ok done
      obtain ⟨rest', others', perm⟩ := ih others
      exact ⟨result :: rest', mapM_cons_of_ok here others', perm.cons result⟩
  | swap first second items =>
      obtain ⟨one, later, here, others, rfl⟩ := mapM_cons_eq_ok done
      obtain ⟨two, rest, there, others', rfl⟩ := mapM_cons_eq_ok others
      exact ⟨two :: one :: rest, mapM_cons_of_ok there (mapM_cons_of_ok here others'),
        List.Perm.swap two one rest⟩
  | trans _ _ first second =>
      obtain ⟨middle, halfway, perm⟩ := first done
      obtain ⟨results', done', perm'⟩ := second halfway
      exact ⟨results', done', perm.trans perm'⟩

theorem forM_eq_ok {α ε : Type} {f : α → Except ε PUnit} {items : List α}
    (succeeds : ∀ item ∈ items, f item = .ok ⟨⟩) : items.forM f = .ok ⟨⟩ := by
  induction items with
  | nil => rfl
  | cons item items ih =>
      obtain ⟨here, later⟩ := List.forall_mem_cons.mp succeeds
      change (f item >>= fun _ => items.forM f) = _
      rw [here]
      exact ih later

end Packetpig
