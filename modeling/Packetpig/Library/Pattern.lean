/-
Regular expressions that are a sequence of literals and repeated letter
classes, matched by backtracking: a greedy run is tried from its longest extent
down, a lazy one from its shortest up.
-/

import Packetpig.Library.Text

namespace Packetpig.Text

inductive Piece where
  | literal (word : Bytes)
  | run (captured greedy : Bool) (least : Nat) (most : Option Nat) (letters : Byte → Bool)

abbrev Pattern := List Piece

namespace Pattern

def lengths (greedy : Bool) (least : Nat) (most : Option Nat) (letters : Byte → Bool)
    (text : Bytes) : List Nat :=
  let available := (text.takeWhile letters).length
  let longest := match most with
    | some most => min most available
    | none => available
  let ascending := List.range' least (longest + 1 - least)
  if greedy then ascending.reverse else ascending

def matchHere : Pattern → Bytes → Option (List Bytes × Bytes)
  | [], text => some ([], text)
  | .literal word :: pieces, text =>
      match word.isPrefixOf? text with
      | some rest => matchHere pieces rest
      | none => none
  | .run captured greedy least most letters :: pieces, text =>
      (lengths greedy least most letters text).findSome? fun count =>
        (matchHere pieces (text.drop count)).map fun found =>
          (if captured then text.take count :: found.1 else found.1, found.2)

def find (pattern : Pattern) : Bytes → Option (List Bytes × Bytes)
  | [] => matchHere pattern []
  | head :: tail =>
      match matchHere pattern (head :: tail) with
      | some found => some found
      | none => find pattern tail

/-- The successive matches of a pattern that matches no empty text; the length
of the text is fuel enough. -/
def findAll (pattern : Pattern) : Nat → Bytes → List (List Bytes)
  | 0, _ => []
  | fuel + 1, text =>
      match find pattern text with
      | some (captures, rest) => captures :: findAll pattern fuel rest
      | none => []

@[simp] theorem matchHere_literal_append (word rest : Bytes) (pieces : Pattern) :
    matchHere (.literal word :: pieces) (word ++ rest) = matchHere pieces rest := by
  have found : word.isPrefixOf? (word ++ rest) = some rest :=
    List.isPrefixOf?_eq_some_iff_append_eq.mpr rfl
  simp only [matchHere, found]

theorem matchHere_literal_of_not_prefix (word text : Bytes) (pieces : Pattern)
    (absent : ¬ word <+: text) : matchHere (.literal word :: pieces) text = none := by
  have missing : word.isPrefixOf? text = none := by
    cases found : word.isPrefixOf? text with
    | none => rfl
    | some rest =>
        exact absurd ⟨rest, List.isPrefixOf?_eq_some_iff_append_eq.mp found⟩ absent
  simp only [matchHere, missing]

theorem matchHere_lazy (captured : Bool) (letters : Byte → Bool) (pieces : Pattern)
    (before after : Bytes) (allowed : ∀ letter ∈ before, letters letter = true)
    (found : List Bytes × Bytes) (here : matchHere pieces after = some found)
    (earlier : ∀ count < before.length,
      matchHere pieces (before.drop count ++ after) = none) :
    matchHere (.run captured false 0 none letters :: pieces) (before ++ after) =
      some (if captured then before :: found.1 else found.1, found.2) := by
  have enough : before.length ≤ ((before ++ after).takeWhile letters).length := by
    rw [List.takeWhile_append_of_pos allowed, List.length_append]
    omega
  obtain ⟨more, moreEq⟩ : ∃ more, lengths false 0 none letters (before ++ after) =
      List.range before.length ++ before.length :: more := by
    have atLeast : ((before ++ after).takeWhile letters).length + 1 - 0 =
        before.length + (((before ++ after).takeWhile letters).length - before.length + 1) := by
      omega
    refine ⟨List.range' (before.length + 1)
      (((before ++ after).takeWhile letters).length - before.length), ?_⟩
    simp only [lengths, Bool.false_eq_true, if_false]
    rw [atLeast, ← List.range'_append_1, List.range_eq_range', Nat.zero_add, List.range'_succ]
  rw [matchHere, moreEq, List.findSome?_eq_some_iff]
  refine ⟨List.range before.length, before.length, more, rfl, ?_, ?_⟩
  · rw [List.drop_left, here, List.take_left]
    rfl
  · intro count small
    rw [List.mem_range] at small
    rw [List.drop_append_of_le_length (by omega), earlier count small]
    rfl

theorem matchHere_greedy (captured : Bool) {least : Nat} {most : Option Nat}
    (letters : Byte → Bool) (pieces : Pattern) (before after : Bytes)
    (allowed : ∀ letter ∈ before, letters letter = true) (enough : least ≤ before.length)
    (bounded : ∀ bound ∈ most, before.length ≤ bound)
    (found : List Bytes × Bytes) (here : matchHere pieces after = some found)
    (later : ∀ count, before.length < count → count ≤ ((before ++ after).takeWhile letters).length →
      matchHere pieces ((before ++ after).drop count) = none) :
    matchHere (.run captured true least most letters :: pieces) (before ++ after) =
      some (if captured then before :: found.1 else found.1, found.2) := by
  have available : before.length ≤ ((before ++ after).takeWhile letters).length := by
    rw [List.takeWhile_append_of_pos allowed, List.length_append]
    omega
  obtain ⟨longest, reached, within, lengthsEq⟩ : ∃ longest, before.length ≤ longest ∧
      longest ≤ ((before ++ after).takeWhile letters).length ∧
      lengths true least most letters (before ++ after) =
        (List.range' least (longest + 1 - least)).reverse := by
    cases most with
    | none => exact ⟨_, available, Nat.le_refl _, rfl⟩
    | some bound =>
        have atMost := bounded bound rfl
        exact ⟨min bound _, by omega, Nat.min_le_right _ _, rfl⟩
  have parted : List.range' least (longest + 1 - least) =
      List.range' least (before.length - least) ++
        before.length :: List.range' (before.length + 1) (longest - before.length) := by
    have total : longest + 1 - least =
        (before.length - least) + (longest - before.length + 1) := by omega
    have middle : least + (before.length - least) = before.length := by omega
    rw [total, ← List.range'_append_1, middle, List.range'_succ]
  rw [matchHere, lengthsEq, parted, List.reverse_append, List.reverse_cons, List.append_assoc,
    List.singleton_append, List.findSome?_eq_some_iff]
  refine ⟨_, before.length, _, rfl, ?_, ?_⟩
  · rw [List.drop_left, here, List.take_left]
    rfl
  · intro count member
    rw [List.mem_reverse, List.mem_range'_1] at member
    rw [later count (by omega) (by omega)]
    rfl

theorem matchHere_greedy_stop (captured : Bool) {least : Nat} {most : Option Nat}
    (letters : Byte → Bool) (pieces : Pattern) (before after : Bytes)
    (allowed : ∀ letter ∈ before, letters letter = true) (enough : least ≤ before.length)
    (bounded : ∀ bound ∈ most, before.length ≤ bound)
    (stops : ∀ letter ∈ after.head?, letters letter = false)
    (found : List Bytes × Bytes) (here : matchHere pieces after = some found) :
    matchHere (.run captured true least most letters :: pieces) (before ++ after) =
      some (if captured then before :: found.1 else found.1, found.2) := by
  apply matchHere_greedy captured letters pieces before after allowed enough bounded found here
  intro count longer within
  have nothing : after.takeWhile letters = [] := by
    cases after with
    | nil => rfl
    | cons head tail => exact List.takeWhile_cons_of_neg (by simp [stops head rfl])
  rw [List.takeWhile_append_of_pos allowed, nothing, List.append_nil] at within
  omega

theorem matchHere_greedy_unbounded (captured : Bool) {least : Nat}
    (letters : Byte → Bool) (pieces : Pattern) (before after : Bytes)
    (allowed : ∀ letter ∈ before, letters letter = true) (enough : least ≤ before.length)
    (stops : ∀ letter ∈ after.head?, letters letter = false)
    (found : List Bytes × Bytes) (here : matchHere pieces after = some found) :
    matchHere (.run captured true least none letters :: pieces) (before ++ after) =
      some (if captured then before :: found.1 else found.1, found.2) :=
  matchHere_greedy_stop captured letters pieces before after allowed enough
    (fun _ absent => by cases absent) stops found here

theorem matchHere_word (letters : Byte → Bool) (pieces : Pattern) {word after : Bytes}
    (nonempty : word ≠ []) (allowed : ∀ letter ∈ word, letters letter = true)
    (stops : ∀ letter ∈ after.head?, letters letter = false) {found : List Bytes × Bytes}
    (here : matchHere pieces after = some found) :
    matchHere (.run true true 1 none letters :: pieces) (word ++ after) =
      some (word :: found.1, found.2) :=
  matchHere_greedy_unbounded true letters pieces word after allowed
    (List.length_pos_of_ne_nil nonempty) stops found here

theorem matchHere_literal_eq_some {word text : Bytes} {pieces : Pattern}
    {found : List Bytes × Bytes}
    (matched : matchHere (.literal word :: pieces) text = some found) :
    ∃ rest, text = word ++ rest ∧ matchHere pieces rest = some found := by
  cases split : word.isPrefixOf? text with
  | none => simp only [matchHere, split, reduceCtorEq] at matched
  | some rest =>
      simp only [matchHere, split] at matched
      exact ⟨rest, (List.isPrefixOf?_eq_some_iff_append_eq.mp split).symm, matched⟩

private theorem mem_lengths {greedy : Bool} {least : Nat} {most : Option Nat}
    {letters : Byte → Bool} {text : Bytes} {count : Nat} :
    count ∈ lengths greedy least most letters text ↔
      least ≤ count ∧ count ≤ (text.takeWhile letters).length ∧
        ∀ bound ∈ most, count ≤ bound := by
  have ascending : count ∈ lengths greedy least most letters text ↔
      count ∈ lengths false least most letters text := by
    cases greedy with
    | false => exact Iff.rfl
    | true => exact List.mem_reverse
  rw [ascending]
  cases most with
  | none =>
      simp only [lengths, Bool.false_eq_true, if_false, List.mem_range'_1]
      constructor
      · exact fun member => ⟨member.1, by omega, fun _ absent => by cases absent⟩
      · exact fun bounds => by omega
  | some bound =>
      simp only [lengths, Bool.false_eq_true, if_false, List.mem_range'_1]
      constructor
      · refine fun member => ⟨member.1, by omega, fun _ same => ?_⟩
        cases same
        omega
      · intro bounds
        have below := bounds.2.2 bound rfl
        omega

private theorem le_takeWhile_iff {letters : Byte → Bool} {text : Bytes} {count : Nat}
    (inside : count ≤ text.length) :
    count ≤ (text.takeWhile letters).length ↔
      ∀ letter ∈ text.take count, letters letter = true := by
  induction text generalizing count with
  | nil => simpa using inside
  | cons head tail ih =>
      cases count with
      | zero => simp
      | succ count =>
          rw [List.take_succ_cons, List.forall_mem_cons]
          by_cases allowed : letters head = true
          · rw [List.takeWhile_cons_of_pos allowed, List.length_cons, Nat.succ_le_succ_iff,
              ih (by simpa using inside)]
            simp [allowed]
          · rw [List.takeWhile_cons_of_neg allowed]
            simp [allowed]

theorem matchHere_run_eq_some {captured greedy : Bool} {least : Nat} {most : Option Nat}
    {letters : Byte → Bool} {pieces : Pattern} {text : Bytes} {found : List Bytes × Bytes}
    (matched : matchHere (.run captured greedy least most letters :: pieces) text = some found) :
    ∃ before after found', text = before ++ after ∧
      (∀ letter ∈ before, letters letter = true) ∧ least ≤ before.length ∧
      (∀ bound ∈ most, before.length ≤ bound) ∧ matchHere pieces after = some found' ∧
      found = (if captured then before :: found'.1 else found'.1, found'.2) ∧
      (greedy = false → ∀ count < before.length, least ≤ count →
        matchHere pieces (text.drop count) = none) := by
  rw [matchHere, List.findSome?_eq_some_iff] at matched
  rcases matched with ⟨tried, count, others, order, taken, missed⟩
  obtain ⟨found', here, same⟩ := Option.map_eq_some_iff.mp taken
  have member : count ∈ lengths greedy least most letters text := by
    rw [order]
    exact List.mem_append_right _ List.mem_cons_self
  obtain ⟨enough, available, bounded⟩ := mem_lengths.mp member
  have inside : count ≤ text.length :=
    available.trans (List.takeWhile_prefix letters).length_le
  have size : (text.take count).length = count := List.length_take_of_le inside
  refine ⟨text.take count, text.drop count, found', (List.take_append_drop _ _).symm,
    (le_takeWhile_iff inside).mp available, by omega, by rw [size]; exact bounded, here,
    same.symm, ?_⟩
  intro lazy smaller less atLeast
  subst lazy
  rw [size] at less
  -- A smaller length is tried before, since they come in ascending order.
  have earlier : smaller ∈ tried ++ count :: others := by
    rw [← order]
    refine mem_lengths.mpr ⟨atLeast, by omega, fun bound isBound => ?_⟩
    have below := bounded bound isBound
    omega
  have sorted : (tried ++ count :: others).Pairwise (· < ·) := by
    rw [← order]
    exact List.pairwise_lt_range'
  have inTried : smaller ∈ tried := by
    rcases List.mem_append.mp earlier with inTried | behind
    · exact inTried
    · rcases List.mem_cons.mp behind with rfl | inOthers
      · omega
      · have ordered := (List.pairwise_append.mp sorted).2.1
        have larger := List.rel_of_pairwise_cons ordered inOthers
        omega
  have absent := missed smaller inTried
  rwa [Option.map_eq_none_iff] at absent

theorem matchHere_run_ne_none {captured greedy : Bool} {least : Nat} {most : Option Nat}
    {letters : Byte → Bool} {pieces : Pattern} {before after : Bytes}
    (allowed : ∀ letter ∈ before, letters letter = true) (enough : least ≤ before.length)
    (bounded : ∀ bound ∈ most, before.length ≤ bound) (here : matchHere pieces after ≠ none) :
    matchHere (.run captured greedy least most letters :: pieces) (before ++ after) ≠ none := by
  intro missed
  rw [matchHere, List.findSome?_eq_none_iff] at missed
  have inside : before.length ∈ lengths greedy least most letters (before ++ after) := by
    refine mem_lengths.mpr ⟨enough, ?_, bounded⟩
    rw [List.takeWhile_append_of_pos allowed, List.length_append]
    omega
  have absent := missed before.length inside
  rw [List.drop_left, Option.map_eq_none_iff] at absent
  exact here absent

theorem infix_of_matchHere (word : Bytes) (pieces : Pattern)
    (member : Piece.literal word ∈ pieces) :
    ∀ (text : Bytes) (found : List Bytes × Bytes), matchHere pieces text = some found →
      word <:+: text := by
  induction pieces with
  | nil => exact absurd member List.not_mem_nil
  | cons piece pieces ih =>
      intro text found matched
      cases piece with
      | literal here =>
          cases split : here.isPrefixOf? text with
          | none => simp only [matchHere, split, reduceCtorEq] at matched
          | some rest =>
              simp only [matchHere, split] at matched
              have whole := List.isPrefixOf?_eq_some_iff_append_eq.mp split
              rcases List.mem_cons.mp member with same | later
              · cases same
                exact ⟨[], rest, whole⟩
              · exact (ih later rest found matched).trans ⟨here, [], by rw [List.append_nil, whole]⟩
      | run captured greedy least most letters =>
          have later : Piece.literal word ∈ pieces := by
            rcases List.mem_cons.mp member with same | later
            · cases same
            · exact later
          rw [matchHere, List.findSome?_eq_some_iff] at matched
          rcases matched with ⟨_, count, _, -, here, -⟩
          obtain ⟨found', matched', -⟩ := Option.map_eq_some_iff.mp here
          exact (ih later _ found' matched').trans (List.drop_suffix count text).isInfix

theorem find_of_matchHere {pattern : Pattern} {text : Bytes} {found : List Bytes × Bytes}
    (here : matchHere pattern text = some found) : find pattern text = some found := by
  cases text with
  | nil => exact here
  | cons head tail => simp only [find, here]

theorem find_cons_of_none {pattern : Pattern} {head : Byte} {tail : Bytes}
    (missed : matchHere pattern (head :: tail) = none) :
    find pattern (head :: tail) = find pattern tail := by
  rw [find, missed]

theorem find_eq_some {pattern : Pattern} {text : Bytes} {found : List Bytes × Bytes}
    (matched : find pattern text = some found) :
    ∃ front rest, text = front ++ rest ∧ matchHere pattern rest = some found := by
  induction text with
  | nil => exact ⟨[], [], rfl, matched⟩
  | cons head tail ih =>
      unfold find at matched
      cases here : matchHere pattern (head :: tail) with
      | some found' =>
          rw [here] at matched
          exact ⟨[], head :: tail, rfl, here.trans matched⟩
      | none =>
          rw [here] at matched
          obtain ⟨front, rest, same, later⟩ := ih matched
          exact ⟨head :: front, rest, by rw [same, List.cons_append], later⟩

theorem find_eq_none_of_not_infix {pattern : Pattern} {word text : Bytes}
    (member : Piece.literal word ∈ pattern) (absent : ¬ word <:+: text) :
    find pattern text = none := by
  have never : ∀ text', text' <:+ text → matchHere pattern text' = none := by
    intro text' isSuffix
    cases matched : matchHere pattern text' with
    | none => rfl
    | some found =>
        have inside := infix_of_matchHere word pattern member text' found matched
        exact absurd (inside.trans isSuffix.isInfix) absent
  induction text with
  | nil => exact never [] (List.suffix_refl _)
  | cons head tail ih =>
      have later : ¬ word <:+: tail := fun inside =>
        absent (inside.trans (List.suffix_cons head tail).isInfix)
      rw [find, never (head :: tail) (List.suffix_refl _)]
      exact ih later fun text' isSuffix => never text' (isSuffix.trans (List.suffix_cons _ _))

end Pattern

end Packetpig.Text
