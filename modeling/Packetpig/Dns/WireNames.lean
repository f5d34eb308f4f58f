/-
Names as they stand in a DNS message: labels, each behind its length, up to an
empty one or to a pointer to the rest of the name. What the parser makes of
them, and what it makes of pointers that lead in a circle.
-/

import Packetpig.Dns.DNS
import Packetpig.Library.Radix

namespace Packetpig

open Text

def At (buffer : Bytes) (offset : Nat) (bytes : Bytes) : Prop := bytes <+: buffer.drop offset

instance (buffer : Bytes) (offset : Nat) (bytes : Bytes) : Decidable (At buffer offset bytes) :=
  inferInstanceAs (Decidable (bytes <+: buffer.drop offset))

theorem At.left {buffer first second : Bytes} {offset : Nat}
    (here : At buffer offset (first ++ second)) : At buffer offset first :=
  (List.prefix_append first second).trans here

theorem At.right {buffer first second : Bytes} {offset : Nat}
    (here : At buffer offset (first ++ second)) : At buffer (offset + first.length) second := by
  obtain ⟨rest, whole⟩ := here
  refine ⟨rest, ?_⟩
  rw [← List.drop_drop, ← whole, List.append_assoc, List.drop_left]

theorem At.fits {buffer bytes : Bytes} {offset : Nat} (here : At buffer offset bytes)
    (some : bytes ≠ []) : offset + bytes.length ≤ buffer.length := by
  have short := here.length_le
  have positive := List.length_pos_iff.mpr some
  rw [List.length_drop] at short
  omega

theorem At.slice_eq {buffer bytes : Bytes} {offset : Nat} (here : At buffer offset bytes)
    {low high : Int} (isLow : low = offset) (isHigh : high = offset + bytes.length) :
    slice buffer low high = bytes := by
  subst isLow isHigh
  obtain ⟨rest, whole⟩ := here
  have bound : ((offset : Int) + bytes.length) = ((offset + bytes.length : Nat) : Int) := by
    push_cast
    rfl
  rw [slice, bound, sliceTo_natCast, if_neg (by omega), Int.toNat_natCast, List.drop_take,
    ← whole, Nat.add_sub_cancel_left, List.take_left]

theorem At.item_eq {buffer rest : Bytes} {offset : Nat} {byte : Byte}
    (here : At buffer offset (byte :: rest)) : item buffer offset = some byte := by
  obtain ⟨after, whole⟩ := here
  have first := congrArg List.head? whole
  rw [List.head?_drop, List.cons_append, List.head?_cons] at first
  have positive : ¬ (offset : Int) < 0 := by omega
  simp only [item, positive, if_false, Int.toNat_natCast]
  exact first.symm

namespace Struct

theorem unpackH_digits {number : Nat} (small : number < 2 ^ 16) :
    unpackH (Radix.digits 2 number) = .ok number := by
  have value := Radix.value_digits 2 number
  rw [Nat.mod_eq_of_lt (by omega)] at value
  have width := Radix.digits_length 2 number
  generalize Radix.digits 2 number = bytes at value width
  match bytes, width with
  | [b1, b0], _ =>
      rw [← value]
      simp [unpackH, Radix.value]

theorem unpackL_digits {number : Nat} (small : number < 2 ^ 32) :
    unpackL (Radix.digits 4 number) = .ok number := by
  have value := Radix.value_digits 4 number
  rw [Nat.mod_eq_of_lt (by omega)] at value
  have width := Radix.digits_length 4 number
  generalize Radix.digits 4 number = bytes at value width
  match bytes, width with
  | [b3, b2, b1, b0], _ =>
      rw [← value]
      simp [unpackL, Radix.value]

end Struct

structure DNSLabel where
  text : Bytes
  nonempty : text ≠ []
  short : text.length < 64

namespace DNSLabel

def lengthByte (label : DNSLabel) : Byte := UInt8.ofNat label.text.length

theorem lengthByte_toNat (label : DNSLabel) : label.lengthByte.toNat = label.text.length := by
  have short := label.short
  rw [lengthByte, UInt8.toNat_ofNat']
  omega

theorem lengthByte_mask (label : DNSLabel) : label.lengthByte &&& 0xC0 ≠ 0xC0 := by
  have short := label.short
  unfold lengthByte
  generalize label.text.length = length at short
  revert length
  decide

theorem lengthByte_ne_zero (label : DNSLabel) : label.lengthByte ≠ 0 := by
  intro zero
  have value := label.lengthByte_toNat
  rw [zero] at value
  exact label.nonempty (List.length_eq_zero_iff.mp value.symm)

end DNSLabel

def dotted (labels : List DNSLabel) : Bytes := (ascii ".").intercalate (labels.map DNSLabel.text)

def pointerBytes (target : Nat) : Bytes := Radix.digits 2 (0xC000 + (target + 12))

/-- A name at an offset, the offset behind it, and the number of its parts. -/
inductive NameAt (buffer : Bytes) : Nat → List DNSLabel → Nat → Nat → Prop
  | root {offset : Nat} (here : At buffer offset [0]) : NameAt buffer offset [] (offset + 1) 1
  | label {offset after parts : Nat} {label : DNSLabel} {labels : List DNSLabel}
      (here : At buffer offset (label.lengthByte :: label.text))
      (rest : NameAt buffer (offset + 1 + label.text.length) labels after parts) :
      NameAt buffer offset (label :: labels) after (parts + 1)
  | pointer {offset target after parts : Nat} {labels : List DNSLabel}
      (small : target + 12 < 2 ^ 14) (here : At buffer offset (pointerBytes target))
      (rest : NameAt buffer target labels after parts) :
      NameAt buffer offset labels (offset + 2) (parts + 1)

theorem dotted_cons_cons (label next : DNSLabel) (labels : List DNSLabel) :
    dotted (label :: next :: labels) = label.text ++ ascii "." ++ dotted (next :: labels) := by
  simp [dotted, List.intercalate]

theorem dotted_cons_ne_nil (label : DNSLabel) (labels : List DNSLabel) :
    dotted (label :: labels) ≠ [] := by
  cases labels with
  | nil =>
      have same : dotted [label] = label.text := by simp [dotted, List.intercalate]
      rw [same]
      exact label.nonempty
  | cons next labels =>
      rw [dotted_cons_cons]
      simp [label.nonempty]

theorem dotted_cons (label : DNSLabel) (labels : List DNSLabel) :
    dotted (label :: labels) =
      if dotted labels = [] then label.text else label.text ++ ascii "." ++ dotted labels := by
  cases labels with
  | nil =>
      have empty : dotted [] = [] := rfl
      rw [if_pos empty]
      simp [dotted, List.intercalate]
  | cons next labels => rw [if_neg (dotted_cons_ne_nil next labels), dotted_cons_cons]

namespace DNS

private theorem pointerBytes_eq {target : Nat} (small : target + 12 < 2 ^ 14) :
    ∃ high low, pointerBytes target = [high, low] ∧ high &&& 0xC0 = 0xC0 ∧
      Struct.unpackH [high, low] = .ok (0xC000 + (target + 12)) := by
  have unpacked := Struct.unpackH_digits (show 0xC000 + (target + 12) < 2 ^ 16 by omega)
  have width := Radix.digits_length 2 (0xC000 + (target + 12))
  unfold pointerBytes
  generalize Radix.digits 2 (0xC000 + (target + 12)) = bytes at unpacked width
  match bytes, width with
  | [high, low], _ =>
      refine ⟨high, low, rfl, ?_, unpacked⟩
      have value := Except.ok.inj unpacked
      have lowLt := low.toNat_lt
      have large : 192 ≤ high.toNat := by omega
      have all : ∀ number < 256, 192 ≤ number → UInt8.ofNat number &&& 0xC0 = 0xC0 := by
        decide +kernel
      have here := all high.toNat high.toNat_lt large
      rw [UInt8.ofNat_toNat] at here
      exact here

private theorem pointer_masked {target : Nat} (small : target + 12 < 2 ^ 14) :
    (((0xC000 + (target + 12) &&& 0x3FFF : Nat) : Int) - 12) = target := by
  have masked : 0xC000 + (target + 12) &&& 0x3FFF = target + 12 := by
    rw [show 0x3FFF = 2 ^ 14 - 1 by decide, Nat.and_two_pow_sub_one_eq_mod]
    omega
  rw [masked]
  push_cast
  omega

theorem parseCompressedMessage_nameAt {buffer : Bytes} {offset after parts : Nat}
    {labels : List DNSLabel} (name : NameAt buffer offset labels after parts) {frames : Nat}
    (enough : parts ≤ frames) :
    parseCompressedMessage buffer frames offset = .ok ((after : Int), dotted labels) := by
  have inside : ∀ {offset : Nat} {bytes : Bytes}, At buffer offset bytes → bytes ≠ [] →
      ¬ (buffer.length : Int) ≤ offset := by
    intro offset bytes here some
    have fits := here.fits some
    have positive := List.length_pos_iff.mpr some
    omega
  induction name generalizing frames with
  | @root offset here =>
      obtain ⟨frames, rfl⟩ := Nat.exists_eq_add_of_le' enough
      unfold parseCompressedMessage
      rw [if_neg (inside here (List.cons_ne_nil _ _)), here.item_eq]
      rfl
  | @label offset after parts label labels here _ ih =>
      cases frames with
      | zero => exact absurd enough (Nat.not_succ_le_zero _)
      | succ frames =>
          have front : At buffer offset ([label.lengthByte] ++ label.text) := here
          have text : slice buffer ((offset : Int) + 1)
              ((offset + 1 + label.text.length : Nat) : Int) = label.text :=
            front.right.slice_eq rfl rfl
          have next : ((offset : Int) + 1 + label.lengthByte.toNat) =
              ((offset + 1 + label.text.length : Nat) : Int) := by
            rw [label.lengthByte_toNat]
            push_cast
            rfl
          unfold parseCompressedMessage
          rw [if_neg (inside here (List.cons_ne_nil _ _)), here.item_eq]
          dsimp only
          rw [if_neg label.lengthByte_mask, if_neg label.lengthByte_ne_zero, next, text,
            ih (Nat.le_of_succ_le_succ enough), dotted_cons]
          simp only [bind, Except.bind]
          split
          · rfl
          · rfl
  | @pointer offset target after parts labels small here _ ih =>
      cases frames with
      | zero => exact absurd enough (Nat.not_succ_le_zero _)
      | succ frames =>
          obtain ⟨high, low, isPointer, isMarked, unpacked⟩ := pointerBytes_eq small
          rw [isPointer] at here
          have bytes := here.slice_eq rfl (show (offset : Int) + 2 = _ from rfl)
          unfold parseCompressedMessage
          rw [if_neg (inside here (List.cons_ne_nil _ _)), here.item_eq]
          dsimp only
          rw [if_pos isMarked, bytes, unpacked]
          simp only [bind, Except.bind]
          rw [pointer_masked small, ih (Nat.le_of_succ_le_succ enough)]
          rfl

def nextPart (buffer : Bytes) (offset : Int) : Option Int :=
  if (buffer.length : Int) ≤ offset then none
  else
    match item buffer offset with
    | none => none
    | some byte =>
        if byte &&& 0xC0 = 0xC0 then
          match Struct.unpackH (slice buffer offset (offset + 2)) with
          | .ok pointer => some (((pointer &&& 0x3FFF : Nat) : Int) - 12)
          | .error _ => none
        else if byte = 0 then none
        else some (offset + 1 + byte.toNat)

def partAfter (buffer : Bytes) (offset : Int) : Nat → Option Int
  | 0 => some offset
  | steps + 1 => (partAfter buffer offset steps).bind (nextPart buffer)

def Endless (buffer : Bytes) (offset : Int) : Prop :=
  ∀ steps, (partAfter buffer offset steps).isSome

theorem partAfter_add (buffer : Bytes) {offset place : Int} {steps : Nat}
    (reached : partAfter buffer offset steps = some place) (more : Nat) :
    partAfter buffer offset (steps + more) = partAfter buffer place more := by
  induction more with
  | zero => exact reached
  | succ more ih => rw [Nat.add_succ, partAfter, ih, partAfter]

theorem partAfter_none {buffer : Bytes} {offset : Int} {steps : Nat}
    (ended : partAfter buffer offset steps = none) (more : Nat) :
    partAfter buffer offset (steps + more) = none := by
  induction more with
  | zero => exact ended
  | succ more ih =>
      rw [Nat.add_succ, partAfter, ih]
      rfl

theorem endless_of_circle {buffer : Bytes} {offset place : Int} {steps round : Nat}
    (reached : partAfter buffer offset steps = some place) (positive : 0 < round)
    (circle : partAfter buffer place round = some place) : Endless buffer offset := by
  have again : ∀ times, partAfter buffer offset (steps + round * times) = some place := by
    intro times
    induction times with
    | zero => exact reached
    | succ times ih => rw [Nat.mul_succ, ← Nat.add_assoc, partAfter_add buffer ih, circle]
  intro count
  by_contra ended
  rw [Option.not_isSome_iff_eq_none] at ended
  have later := partAfter_none ended (steps + round * count - count)
  have enough : count ≤ round * count := Nat.le_mul_of_pos_left count positive
  rw [show count + (steps + round * count - count) = steps + round * count by omega,
    again count] at later
  cases later

theorem Endless.next {buffer : Bytes} {offset : Int} (endless : Endless buffer offset) :
    ∃ next, nextPart buffer offset = some next ∧ Endless buffer next := by
  obtain ⟨next, isNext⟩ := Option.isSome_iff_exists.mp (endless 1)
  refine ⟨next, isNext, ?_⟩
  intro steps
  have later := endless (1 + steps)
  rw [partAfter_add buffer isNext] at later
  exact later

private theorem parseCompressedMessage_next {buffer : Bytes} {offset next : Int}
    (goesOn : nextPart buffer offset = some next) {frames : Nat} {exception : PyException}
    (failed : parseCompressedMessage buffer frames next = .error exception) :
    parseCompressedMessage buffer (frames + 1) offset = .error exception := by
  unfold nextPart at goesOn
  unfold parseCompressedMessage
  split at goesOn
  · cases goesOn
  · rename_i within
    rw [if_neg within]
    cases found : item buffer offset with
    | none =>
        rw [found] at goesOn
        cases goesOn
    | some byte =>
        rw [found] at goesOn
        dsimp only at goesOn ⊢
        by_cases isPointer : byte &&& 0xC0 = 0xC0
        · rw [if_pos isPointer] at goesOn ⊢
          cases unpacked : Struct.unpackH (slice buffer offset (offset + 2)) with
          | error exception =>
              rw [unpacked] at goesOn
              cases goesOn
          | ok pointer =>
              rw [unpacked] at goesOn
              cases goesOn
              simp only [bind, Except.bind, failed]
        · rw [if_neg isPointer] at goesOn ⊢
          by_cases isRoot : byte = 0
          · rw [if_pos isRoot] at goesOn
            cases goesOn
          · rw [if_neg isRoot] at goesOn ⊢
            cases goesOn
            simp only [bind, Except.bind, failed]

theorem parseCompressedMessage_endless {buffer : Bytes} {offset : Int}
    (endless : Endless buffer offset) (frames : Nat) :
    parseCompressedMessage buffer frames offset =
      .error (.other (ascii "maximum recursion depth exceeded")) := by
  induction frames generalizing offset with
  | zero => rfl
  | succ frames ih =>
      obtain ⟨next, goesOn, later⟩ := endless.next
      exact parseCompressedMessage_next goesOn (ih later)

end DNS

end Packetpig
