import EcLink.Host
import Mathlib.Data.Nat.Bitwise

/-!
# Event sources on the wire

Each source of system events is one bit of a mask, and the sources of a configuration are switched
on one at a time. A request for one of them carries a mask of four bytes in two halves, the upper
half first and each with its low byte first. Read that way, **the masks that go out are the bits of
the configured mask, every one once**: a byte in the wrong place would be a different source.
-/

namespace EcLink

/-- The bits of a mask that are set, lowest first. -/
def setBits (mask : UInt32) : List Nat := (List.range 32).filter mask.toNat.testBit

/-- The byte with this number, counted from the low end, of the mask that is one bit. -/
def bitByte (bit index : Nat) : UInt8 :=
  if bit / 8 = index then UInt8.ofNat (2 ^ (bit % 8)) else 0

/-- The request that switches one source on. -/
def sourceRequest (bit : Nat) : Payload where
  bytes := [0x01, 0x01, 0x01, bitByte bit 2, bitByte bit 3, bitByte bit 0, bitByte bit 1]
  length_pos := by simp
  length_le := by simp [maxPayloadLength]

/-- The mask in such a request. -/
def maskOf (request : Payload) : Nat :=
  match request.bytes with
  | [_, _, _, third, fourth, first, second] =>
      first.toNat + 2 ^ 8 * second.toNat + 2 ^ 16 * third.toNat + 2 ^ 24 * fourth.toNat
  | _ => 0

theorem lt_of_mem_setBits {mask : UInt32} {bit : Nat} (hbit : bit ∈ setBits mask) : bit < 32 :=
  List.mem_range.mp (List.mem_filter.mp hbit).1

theorem mem_setBits {mask : UInt32} {bit : Nat} :
    bit ∈ setBits mask ↔ mask.toNat.testBit bit = true := by
  unfold setBits
  rw [List.mem_filter, List.mem_range]
  constructor
  · rintro ⟨-, hset⟩
    exact hset
  · intro hset
    refine ⟨?_, hset⟩
    -- A mask has no bit above the thirty-second.
    by_contra hhigh
    have hbound : mask.toNat < 2 ^ bit :=
      Nat.lt_of_lt_of_le mask.toNat_lt (Nat.pow_le_pow_right (by decide) (Nat.le_of_not_lt hhigh))
    rw [Nat.testBit_lt_two_pow hbound] at hset
    cases hset

theorem toNat_shift : ∀ bit < 32, (1 <<< UInt32.ofNat bit : UInt32).toNat = 2 ^ bit := by decide

theorem maskOf_sourceRequest : ∀ bit < 32, maskOf (sourceRequest bit) = 2 ^ bit := by decide

theorem bytes_sourceRequest : ∀ bit < 32,
    [MessageType.system.code, SystemCommand.configureEventReporting.code, SystemRequest.flag true,
      SystemRequest.maskByte (1 <<< UInt32.ofNat bit) 2,
      SystemRequest.maskByte (1 <<< UInt32.ofNat bit) 3,
      SystemRequest.maskByte (1 <<< UInt32.ofNat bit) 0,
      SystemRequest.maskByte (1 <<< UInt32.ofNat bit) 1] = (sourceRequest bit).bytes := by
  decide

theorem eventReporting_eq {bit : Nat} (hbit : bit < 32) :
    SystemRequest.eventReporting (1 <<< UInt32.ofNat bit) true =
      .ask (sourceRequest bit).bytes := by
  rw [← bytes_sourceRequest bit hbit]
  rfl

/-- The sources of a mask are its bits. -/
theorem sources_eq (mask : UInt32) :
    Host.sources mask = (setBits mask).map fun bit => 1 <<< UInt32.ofNat bit := by
  unfold Host.sources setBits
  rw [List.filter_map]
  congr 1
  apply List.filter_congr
  intro bit hbit
  have hshift := toNat_shift bit (List.mem_range.mp hbit)
  have hmasked : (mask &&& 1 <<< UInt32.ofNat bit).toNat =
      (mask.toNat.testBit bit).toNat * 2 ^ bit := by
    rw [UInt32.toNat_and, hshift, Nat.and_two_pow]
  have hpositive : 0 < 2 ^ bit := Nat.two_pow_pos bit
  rw [Function.comp_apply, bne, Bool.not_eq_eq_eq_not, Bool.eq_iff_iff, beq_iff_eq,
    ← UInt32.toNat_inj, hmasked]
  cases mask.toNat.testBit bit with
  | true => simp
  | false => simp

theorem testBit_union (bits : List Nat) (union index : Nat) :
    ((bits.map (2 ^ ·)).foldl (· ||| ·) union).testBit index =
      (union.testBit index || decide (index ∈ bits)) := by
  induction bits generalizing union with
  | nil => simp
  | cons bit bits ih =>
      rw [List.map_cons, List.foldl_cons, ih, Nat.testBit_or, Nat.testBit_two_pow, Bool.or_assoc]
      congr 1
      simp only [List.mem_cons, Bool.decide_or, eq_comm]

theorem setBits_ascend (mask : UInt32) : (setBits mask).Pairwise (· < ·) :=
  List.pairwise_lt_range.filter _

/-- **The masks that go out are single bits**, each a higher one than that before it, and together
    they are the configured mask. -/
theorem masks_of_sources (mask : UInt32) :
    ((setBits mask).map (maskOf ∘ sourceRequest)).Pairwise (· < ·) ∧
      (∀ single ∈ (setBits mask).map (maskOf ∘ sourceRequest), ∃ bit < 32, single = 2 ^ bit) ∧
      ((setBits mask).map (maskOf ∘ sourceRequest)).foldl (· ||| ·) 0 = mask.toNat := by
  have hmasks : (setBits mask).map (maskOf ∘ sourceRequest) = (setBits mask).map (2 ^ ·) := by
    apply List.map_congr_left
    intro bit hbit
    exact maskOf_sourceRequest bit (lt_of_mem_setBits hbit)
  rw [hmasks]
  refine ⟨?_, ?_, ?_⟩
  · rw [List.pairwise_map]
    apply (setBits_ascend mask).imp
    intro lower higher hlower
    exact Nat.pow_lt_pow_right (by decide) hlower
  · intro single hsingle
    obtain ⟨bit, hbit, rfl⟩ := List.mem_map.mp hsingle
    exact ⟨bit, lt_of_mem_setBits hbit, rfl⟩
  · apply Nat.eq_of_testBit_eq
    intro index
    rw [testBit_union, Nat.zero_testBit, Bool.false_or, Bool.eq_iff_iff, decide_eq_true_iff]
    exact mem_setBits

end EcLink
