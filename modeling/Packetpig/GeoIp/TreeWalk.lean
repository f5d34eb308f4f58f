/-
What the loop over the depths finds: in a file that holds a tree of prefixes the
entry that an address begins with, and in any file an answer that is the same
for the whole network of the address.
-/

import Packetpig.GeoIp.LookupService
import Packetpig.Library.BitString
import Packetpig.Library.PrefixTree
import Mathlib.Data.Nat.Bitwise

namespace Packetpig

open Text BitString PrefixTree

namespace InetAddress

/-- The bits that `seekCountry` looks at, of an address of any kind. -/
def longBits (address : InetAddress) : List Bool := ofBytes (address.bytes.take 4)

def bits (address : InetAddress) : List Bool := ofBytes address.bytes

end InetAddress

namespace LookupService

private theorem mask_getLsbD {depth place : Nat} (low : depth < 32) (inside : place < 32) :
    ((1#32 <<< depth).signExtend 64).getLsbD place = decide (place = depth) := by
  rw [BitVec.getLsbD_signExtend, if_pos inside, BitVec.getLsbD_shiftLeft, BitVec.getLsbD_one]
  by_cases same : place = depth
  · subst same
    simp [inside]
    omega
  · rcases Nat.lt_or_gt_of_ne same with below | above
    · simp [same, below]
    · have rest : place - depth ≠ 0 := by omega
      simp [same, rest]

theorem longBit_ofNat {number depth : Nat} (small : number < 2 ^ 32) (low : depth < 32) :
    longBit (BitVec.ofNat 64 number) depth = number.testBit depth := by
  have masked : (BitVec.ofNat 64 number &&& (1#32 <<< depth).signExtend 64).toNat =
      if number.testBit depth then 2 ^ depth else 0 := by
    apply Nat.eq_of_testBit_eq
    intro place
    rw [← BitVec.getLsbD, BitVec.getLsbD_and, BitVec.getLsbD_ofNat]
    by_cases inside : place < 32
    · rw [mask_getLsbD low inside]
      by_cases same : place = depth
      · subst same
        cases bit : number.testBit place with
        | false => simp
        | true => simp [show place < 64 by omega, Nat.testBit_two_pow_self]
      · have other : (2 ^ depth).testBit place = false := Nat.testBit_two_pow_of_ne (Ne.symm same)
        cases number.testBit depth with
        | false => simp [same]
        | true => simp [same, other]
    · have large : number < 2 ^ place :=
        small.trans_le (Nat.pow_le_pow_right Nat.two_pos (Nat.le_of_not_lt inside))
      have none : number.testBit place = false := Nat.testBit_lt_two_pow large
      have other : (2 ^ depth).testBit place = false :=
        Nat.testBit_two_pow_of_ne (by omega)
      cases number.testBit depth with
      | false => simp [none]
      | true => simp [none, other]
  have bound : 2 ^ depth < 2 ^ 63 := Nat.pow_lt_pow_right Nat.one_lt_two (by omega)
  unfold longBit
  rw [BitVec.toInt_eq_toNat_of_lt (by rw [masked]; split <;> omega), masked]
  cases number.testBit depth with
  | false => simp
  | true => simp

private theorem value_take_lt (bytes : Bytes) : Radix.value (bytes.take 4) < 2 ^ 32 := by
  have bound := Radix.value_lt (bytes.take 4)
  have width : (bytes.take 4).length ≤ 4 := List.length_take_le 4 bytes
  have power : 256 ^ (bytes.take 4).length ≤ 256 ^ 4 := Nat.pow_le_pow_right (by omega) width
  exact bound.trans_le power

theorem longBit_bytesToLong (address : InetAddress) {depth : Nat} (low : depth < 32) :
    longBit (bytesToLong address) depth =
      (Radix.value (address.bytes.take 4)).testBit depth :=
  longBit_ofNat (value_take_lt address.bytes) low

theorem bitsBelow_longBit (address : InetAddress) :
    bitsBelow (longBit (bytesToLong address)) 32 = address.longBits := by
  have width : (address.bytes.take 4).length = 4 := by
    rw [List.length_take]
    rcases address.length_eq with same | same
    · omega
    · omega
  rw [InetAddress.longBits, ← bitsBelow_value, width]
  apply bitsBelow_congr
  intro place below
  exact longBit_bytesToLong address below

private theorem bit_ne_zero (byte : Byte) (place : Nat) :
    decide (0 < byte.toNat &&& (1 <<< place)) = byte.toNat.testBit place := by
  rw [Nat.one_shiftLeft, Nat.and_two_pow]
  cases byte.toNat.testBit place with
  | false => simp
  | true => simp

theorem vectorBit_eq {address : InetAddress} (long : address.bytes.length = 16) {depth : Nat}
    (low : depth < 128) :
    vectorBit address.bytes depth = .ok ((Radix.value address.bytes).testBit depth) := by
  have bnum : (127 - depth) >>> 3 = (127 - depth) / 8 := Nat.shiftRight_eq_div_pow _ 3
  have rest : (127 - depth) &&& 7 = (127 - depth) % 8 := Nat.and_two_pow_sub_one_eq_mod _ 3
  have flipped : ∀ place < 8, place ^^^ 7 = 7 - place := by decide
  have inside : (127 - depth) / 8 < address.bytes.length := by omega
  have found := List.getElem?_eq_getElem inside
  unfold vectorBit
  dsimp only
  rw [bnum, found, rest, flipped _ (Nat.mod_lt _ (by omega))]
  dsimp only
  rw [bit_ne_zero, ← testBit_value found (by omega)]
  congr 2
  omega

def NodeAt (service : LookupService) (place left right : Nat) : Prop :=
  ∀ buf : Bytes, buf.length = 2 * MAX_RECORD_LENGTH → ∃ buf', service.readNode place buf = .ok buf' ∧
    buf'.length = 2 * MAX_RECORD_LENGTH ∧ service.record buf' 0 = left ∧
    service.record buf' 1 = right

def Seek.ofEntry (above : Nat) : Option (Nat × Nat) → Seek
  | some (value, length) => { value := value, netmask := some (above + length) }
  | none => { value := 0, netmask := none }

private theorem Seek.ofEntry_map (above : Nat) (entry : Option (Nat × Nat)) :
    Seek.ofEntry above (entry.map fun found => (found.1, found.2 + 1)) =
      Seek.ofEntry (above + 1) entry := by
  cases entry with
  | none => rfl
  | some found =>
      simp only [Option.map_some, Seek.ofEntry, Seek.mk.injEq, Option.some.injEq, true_and]
      omega

variable {service : LookupService}

theorem seek_of_stored {segments : Nat} (known : service.databaseSegments = some segments)
    {width : Nat} {bit : Nat → Except JavaException Bool} {bits : Nat → Bool} {depth : Nat}
    (agree : ∀ place < depth, bit place = .ok (bits place)) (within : depth ≤ width)
    {zero one : PrefixTree Nat} {place : Nat}
    (stored : Stored service.NodeAt segments (.node zero one) place) {buf : Bytes}
    (full : buf.length = 2 * MAX_RECORD_LENGTH) :
    service.seek width bit depth place buf =
      .ok (Seek.ofEntry (width - depth) ((node zero one).follow (bitsBelow bits depth))) := by
  induction depth generalizing zero one place buf with
  | zero => rfl
  | succ depth ih =>
      have fewer : ∀ place < depth, bit place = .ok (bits place) :=
        fun place below => agree place (Nat.lt_succ_of_lt below)
      cases stored with
      | @node _ _ _ left right small found onZero onOne =>
          obtain ⟨buf', read, full', isLeft, isRight⟩ := found buf full
          have chosen : service.record buf' (if bits depth then 1 else 0) =
              (if bits depth then right else left : Nat) := by
            cases bits depth with
            | false => exact isLeft
            | true => exact isRight
          have below : Stored service.NodeAt segments (if bits depth then one else zero)
              (if bits depth then right else left) := by
            cases bits depth with
            | false => exact onZero
            | true => exact onOne
          have deeper : width - (depth + 1) + 1 = width - depth := by omega
          rw [bitsBelow, follow_node, Seek.ofEntry_map, deeper, seek]
          simp only [read, agree depth (Nat.lt_succ_self _), LookupService.segments, known, bind,
            Except.bind, chosen]
          generalize (if bits depth then right else left) = number at below
          generalize (if bits depth then one else zero) = subtree at below ⊢
          cases below with
          | leaf large =>
              rw [if_pos (by exact_mod_cast large)]
              rfl
          | node less pair left' right' =>
              rw [if_neg (by simpa using less)]
              exact ih fewer (Nat.le_of_succ_le within) (.node less pair left' right') full'

theorem seekCountry_of_stored {segments : Nat} (known : service.databaseSegments = some segments)
    {zero one : PrefixTree Nat} (stored : Stored service.NodeAt segments (.node zero one) 0)
    (address : InetAddress) :
    service.seekCountry (bytesToLong address) =
      .ok (Seek.ofEntry 0 ((node zero one).follow address.longBits)) := by
  rw [← bitsBelow_longBit]
  exact seek_of_stored known (fun _ _ => rfl) (Nat.le_refl _) stored rfl

theorem seekCountryV6_of_stored {segments : Nat}
    (known : service.databaseSegments = some segments) {zero one : PrefixTree Nat}
    (stored : Stored service.NodeAt segments (.node zero one) 0) {address : InetAddress}
    (long : address.bytes.length = 16) :
    service.seekCountryV6 address =
      .ok (Seek.ofEntry 0 ((node zero one).follow address.bits)) := by
  have same := bitsBelow_value address.bytes
  rw [long] at same
  rw [InetAddress.bits, ← same]
  exact seek_of_stored known (fun _ below => vectorBit_eq long below) (Nat.le_refl _) stored rfl

theorem seek_network {width : Nat} {bit : Nat → Except JavaException Bool} {depth : Nat}
    {offset : Int} {buf : Bytes} {value : Int} {netmask : Nat}
    (found : service.seek width bit depth offset buf = .ok { value, netmask := some netmask })
    (within : depth ≤ width) :
    width - depth < netmask ∧ netmask ≤ width ∧
      ∀ bit' : Nat → Except JavaException Bool,
        (∀ place < depth, width ≤ place + netmask → bit' place = bit place) →
          service.seek width bit' depth offset buf = .ok { value, netmask := some netmask } := by
  induction depth generalizing offset buf with
  | zero => cases found
  | succ depth ih =>
      rw [seek] at found
      obtain ⟨buf', read, found⟩ := bind_eq_ok found
      obtain ⟨one, looked, found⟩ := bind_eq_ok found
      obtain ⟨segments, known, found⟩ := bind_eq_ok found
      -- The answer of the same node, when the bit at its depth is the same.
      have again : ∀ bit' : Nat → Except JavaException Bool, bit' depth = bit depth →
          service.seek width bit' (depth + 1) offset buf =
            if service.record buf' (if one then 1 else 0) ≥ segments then
              .ok { value := service.record buf' (if one then 1 else 0)
                    netmask := some (width - depth) }
            else service.seek width bit' depth (service.record buf' (if one then 1 else 0)) buf' := by
        intro bit' same
        rw [seek]
        simp only [read, same, looked, known, bind, Except.bind]
        rfl
      by_cases isLeaf : service.record buf' (if one then 1 else 0) ≥ segments
      · rw [if_pos isLeaf] at found
        have same := Except.ok.inj found
        rw [Seek.mk.injEq, Option.some.injEq] at same
        rcases same with ⟨isValue, isMask⟩
        subst isValue isMask
        refine ⟨by omega, by omega, ?_⟩
        intro bit' agree
        rw [again bit' (agree depth (Nat.lt_succ_self _) (by omega)), if_pos isLeaf]
      · rw [if_neg isLeaf] at found
        obtain ⟨longer, bounded, elsewhere⟩ := ih found (Nat.le_of_succ_le within)
        refine ⟨by omega, bounded, ?_⟩
        intro bit' agree
        rw [again bit' (agree depth (Nat.lt_succ_self _) (by omega)), if_neg isLeaf]
        apply elsewhere bit'
        intro place below high
        exact agree place (Nat.lt_succ_of_lt below) high

theorem seekCountry_network {address : InetAddress} {value : Int} {netmask : Nat}
    (found : service.seekCountry (bytesToLong address) = .ok { value, netmask := some netmask }) :
    0 < netmask ∧ netmask ≤ 32 ∧ ∀ address' : InetAddress,
      address'.longBits.take netmask = address.longBits.take netmask →
        service.seekCountry (bytesToLong address') =
          .ok { value, netmask := some netmask } := by
  obtain ⟨positive, bounded, elsewhere⟩ := seek_network found (Nat.le_refl _)
  refine ⟨positive, bounded, ?_⟩
  intro address' same
  rw [← bitsBelow_longBit, ← bitsBelow_longBit] at same
  apply elsewhere
  intro place below high
  rw [eq_of_take_bitsBelow same below high]

/-- The netmask that a lookup leaves behind covers addresses with the same
answers only. -/
theorem last_netmask_network {address : InetAddress} {value : Int} {netmask : Nat}
    (found : service.seekCountry (bytesToLong address) = .ok { value, netmask := some netmask })
    {address' : InetAddress}
    (same : address'.longBits.take netmask = address.longBits.take netmask) :
    service.seekCountry (bytesToLong address') = .ok { value, netmask := some netmask } ∧
      service.getCountry (bytesToLong address') = service.getCountry (bytesToLong address) ∧
      service.getOrg (bytesToLong address') = service.getOrg (bytesToLong address) ∧
      service.getLocation (bytesToLong address') = service.getLocation (bytesToLong address) := by
  obtain ⟨-, -, elsewhere⟩ := seekCountry_network found
  have found' := elsewhere address' same
  refine ⟨found', ?_, ?_, ?_⟩
  · rw [getCountry, getCountry, found', found]
  · rw [getOrg, getOrg, found', found]
  · rw [getLocation, getLocation, found', found]

theorem last_netmask_sample :
    let service : LookupService :=
      { databaseType := DatabaseInfo.COUNTRY_EDITION, databaseSegments := some COUNTRY_BEGIN
        recordLength := STANDARD_RECORD_LENGTH
        storage := .memoryCache [16, 255, 255, 0, 255, 255, 255, 255, 255, 1] }
    service.getCountry (bytesToLong { bytes := [10, 0, 0, 1], length_eq := .inl rfl }) =
      service.getCountry (bytesToLong { bytes := [127, 0, 0, 1], length_eq := .inl rfl }) := by
  intro service
  have found : service.seekCountry
      (bytesToLong { bytes := [127, 0, 0, 1], length_eq := .inl rfl }) =
        .ok { value := 16776976, netmask := some 1 } := by
    decide +kernel
  exact (last_netmask_network found (by decide)).2.1

theorem seekCountryV6_network {address : InetAddress} {value : Int} {netmask : Nat}
    (long : address.bytes.length = 16)
    (found : service.seekCountryV6 address = .ok { value, netmask := some netmask }) :
    0 < netmask ∧ netmask ≤ 128 ∧ ∀ address' : InetAddress, address'.bytes.length = 16 →
      address'.bits.take netmask = address.bits.take netmask →
        service.seekCountryV6 address' = .ok { value, netmask := some netmask } := by
  obtain ⟨positive, bounded, elsewhere⟩ := seek_network found (Nat.le_refl _)
  refine ⟨positive, bounded, ?_⟩
  intro address' long' same
  have bits := bitsBelow_value address.bytes
  have bits' := bitsBelow_value address'.bytes
  rw [long] at bits
  rw [long'] at bits'
  rw [InetAddress.bits, InetAddress.bits, ← bits, ← bits'] at same
  apply elsewhere
  intro place below high
  rw [vectorBit_eq long below, vectorBit_eq long' below, eq_of_take_bitsBelow same below high]

end LookupService

end Packetpig
