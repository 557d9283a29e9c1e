import EcLink.Command

/-!
# Payloads

A payload is what the host hands out when the controller reads: between one and thirty-two
bytes. The bounds are part of the type, so a queued payload never has to be checked again, and
its length always fits in the size byte that precedes it on the wire.
-/

namespace EcLink

def maxPayloadLength : Nat := 32

/-- A request that fits on the wire. -/
structure Payload where
  bytes : List UInt8
  length_pos : 0 < bytes.length
  length_le : bytes.length ≤ maxPayloadLength
  deriving Repr

namespace Payload

@[ext] theorem ext {left right : Payload} (hsame : left.bytes = right.bytes) : left = right := by
  cases left; cases right; simp_all

/-- Payloads are told apart by their bytes. -/
instance : DecidableEq Payload := fun _ _ =>
  decidable_of_decidable_of_iff ⟨ext, congrArg Payload.bytes⟩

def ofBytes? (bytes : List UInt8) : Option Payload :=
  if hfits : 0 < bytes.length ∧ bytes.length ≤ maxPayloadLength then
    some ⟨bytes, hfits.1, hfits.2⟩
  else
    none

def sizeByte (payload : Payload) : UInt8 := UInt8.ofNat payload.bytes.length

/-- Asks nothing of the controller; handed out when it reads and nothing is queued. -/
def noop : Payload :=
  ⟨[MessageType.control.code, ControlCommand.noop.code], by decide, by decide⟩

theorem ofBytes?_eq_some_iff {bytes : List UInt8} {payload : Payload} :
    ofBytes? bytes = some payload ↔ payload.bytes = bytes := by
  constructor
  · intro hbuilt
    simp only [ofBytes?] at hbuilt
    split at hbuilt
    · cases hbuilt; rfl
    · cases hbuilt
  · rintro rfl
    simp [ofBytes?, payload.length_pos, payload.length_le]

theorem ofBytes?_eq_none_iff {bytes : List UInt8} :
    ofBytes? bytes = none ↔ bytes.length = 0 ∨ maxPayloadLength < bytes.length := by
  by_cases hfits : 0 < bytes.length ∧ bytes.length ≤ maxPayloadLength
  · simp only [ofBytes?, dif_pos hfits, reduceCtorEq, false_iff]; omega
  · simp only [ofBytes?, dif_neg hfits, true_iff]; omega

theorem toNat_sizeByte (payload : Payload) :
    payload.sizeByte.toNat = payload.bytes.length := by
  have hbound := payload.length_le
  simp only [maxPayloadLength] at hbound
  simp only [sizeByte, UInt8.toNat_ofNat']
  omega

end Payload

end EcLink
