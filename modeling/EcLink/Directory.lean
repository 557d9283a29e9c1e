import EcLink.Frame

/-!
# Who owns a message type

Message types are four bits wide, so the directory has sixteen places. **The first registration
of a type stays**: a second one is refused, and so is a number that is no message type. A
directory only knows its owners by name; `Owner` is whatever the caller uses to tell its
peripherals apart.
-/

namespace EcLink

def messageTypeCount : Nat := 16

inductive Refusal
  | taken (messageType : UInt8)
  | outOfRange (messageType : UInt8)
  deriving DecidableEq, Repr

def Refusal.text : Refusal → String
  | .taken messageType => s!"message type {messageType.toNat} already registered"
  | .outOfRange messageType => s!"invalid message type {messageType.toNat}"

/-- At most one owner for each message type. -/
structure Directory (Owner : Type) where
  slots : Vector (Option Owner) messageTypeCount

namespace Directory

variable {Owner : Type}

def empty : Directory Owner := ⟨Vector.replicate messageTypeCount none⟩

def owner? (directory : Directory Owner) (messageType : UInt8) : Option Owner :=
  (directory.slots[messageType.toNat]?).join

def isRegistered (directory : Directory Owner) (messageType : UInt8) : Bool :=
  (directory.owner? messageType).isSome

def register (directory : Directory Owner) (messageType : UInt8) (owner : Owner) :
    Except Refusal (Directory Owner) :=
  if hrange : messageType.toNat < messageTypeCount then
    match directory.slots[messageType.toNat] with
    | some _ => .error (.taken messageType)
    | none => .ok ⟨directory.slots.set messageType.toNat (some owner)⟩
  else
    .error (.outOfRange messageType)

/-- The owner that a frame is for, with what it gets to see; nobody for a response and for an
    event whose type has no owner. -/
def route (directory : Directory Owner) (frame : Frame) : Option (Owner × Event) := do
  let event ← frame.event?
  let owner ← directory.owner? event.header.messageType
  some (owner, event)

@[simp] theorem owner?_empty (messageType : UInt8) :
    (empty : Directory Owner).owner? messageType = none := by
  simp only [owner?, empty, Vector.getElem?_replicate]
  split <;> rfl

theorem owner?_register {directory updated : Directory Owner} {messageType : UInt8}
    {owner : Owner} (hdone : directory.register messageType owner = .ok updated)
    (asked : UInt8) :
    updated.owner? asked = if asked = messageType then some owner else directory.owner? asked := by
  simp only [register] at hdone
  split at hdone
  case isFalse => cases hdone
  case isTrue hrange =>
    split at hdone
    case h_1 => cases hdone
    case h_2 =>
      cases hdone
      simp only [owner?, Vector.getElem?_set]
      by_cases hsame : asked = messageType
      · subst hsame; simp
      · have hapart : messageType.toNat ≠ asked.toNat := fun hequal =>
          hsame (UInt8.toNat_inj.mp hequal).symm
        simp [hsame, hapart]

/-- A registration goes through exactly where there is a place and it is free. -/
theorem register_isOk_iff (directory : Directory Owner) (messageType : UInt8) (owner : Owner) :
    (∃ updated, directory.register messageType owner = .ok updated) ↔
      messageType.toNat < messageTypeCount ∧ directory.owner? messageType = none := by
  by_cases hrange : messageType.toNat < messageTypeCount
  · simp only [register, dif_pos hrange, owner?, Vector.getElem?_eq_getElem hrange]
    cases directory.slots[messageType.toNat] <;> simp [hrange]
  · simp [register, hrange]

end Directory

end EcLink
