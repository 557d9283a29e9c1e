/-!
# Frames

A frame is one complete message from the embedded controller: a header byte and up to
thirty-three bytes of payload.

    byte 0 (header)                        bytes 1..N
    +---+-------+---+---------------+      +---------------------+
    | 7 |  6 5  | 4 |    3 2 1 0    |      |       payload       |
    +---+-------+---+---------------+      +---------------------+
     event  size       message type

The top bit tells the two kinds apart: set, the frame is an unsolicited **event**; clear, it is
the **response** to the request just made. Size class and message type only mean something on
events. The bounds on the length are part of the type, so a frame always has a header.
-/

namespace EcLink

inductive SizeClass
  | two
  | three
  /-- Variable length; no scan-code table covers it. -/
  | varying
  | reserved
  deriving DecidableEq, Repr

def SizeClass.tableRow? : SizeClass → Option Nat
  | .two => some 0
  | .three => some 1
  | .varying => none
  | .reserved => none

structure Header where
  raw : UInt8
  deriving DecidableEq, Repr

namespace Header

def isEvent (header : Header) : Bool := header.raw &&& 0x80 != 0

def sizeClass (header : Header) : SizeClass :=
  match (header.raw >>> 5) &&& 0x03 with
  | 0 => .two
  | 1 => .three
  | 2 => .varying
  | _ => .reserved

def messageType (header : Header) : UInt8 := header.raw &&& 0x0f

theorem messageType_lt (header : Header) : header.messageType.toNat < 16 := by
  have hbound : header.raw.toNat &&& 15 ≤ 15 := Nat.and_le_right
  have hvalue : header.messageType.toNat = header.raw.toNat &&& 15 := by
    simp [messageType, UInt8.toNat_and]
  omega

end Header

/-- The most bytes a frame may have, header included. -/
def maxFrameLength : Nat := 34

structure Frame where
  bytes : List UInt8
  length_pos : 0 < bytes.length
  length_le : bytes.length ≤ maxFrameLength
  deriving DecidableEq, Repr

namespace Frame

/-- The frame with exactly these bytes, unless there are none or too many. -/
def ofBytes? (bytes : List UInt8) : Option Frame :=
  if hfits : 0 < bytes.length ∧ bytes.length ≤ maxFrameLength then
    some ⟨bytes, hfits.1, hfits.2⟩
  else
    none

def length (frame : Frame) : Nat := frame.bytes.length

def header (frame : Frame) : Header :=
  ⟨frame.bytes.head (List.ne_nil_of_length_pos frame.length_pos)⟩

def payload (frame : Frame) : List UInt8 := frame.bytes.tail

@[ext] theorem ext {left right : Frame} (hsame : left.bytes = right.bytes) : left = right := by
  cases left; cases right; simp_all

theorem bytes_eq (frame : Frame) : frame.bytes = frame.header.raw :: frame.payload :=
  (List.cons_head_tail _).symm

theorem ofBytes?_eq_some_iff {bytes : List UInt8} {frame : Frame} :
    ofBytes? bytes = some frame ↔ frame.bytes = bytes := by
  constructor
  · intro hbuilt
    simp only [ofBytes?] at hbuilt
    split at hbuilt
    · cases hbuilt; rfl
    · cases hbuilt
  · rintro rfl
    simp [ofBytes?, frame.length_pos, frame.length_le]

theorem ofBytes?_eq_none_iff {bytes : List UInt8} :
    ofBytes? bytes = none ↔ bytes.length = 0 ∨ maxFrameLength < bytes.length := by
  by_cases hfits : 0 < bytes.length ∧ bytes.length ≤ maxFrameLength
  · simp only [ofBytes?, dif_pos hfits, reduceCtorEq, false_iff]; omega
  · simp only [ofBytes?, dif_neg hfits, true_iff]; omega

end Frame

/-- What a peripheral sees of a frame: the header, and the payload that starts at byte one. -/
structure Event where
  header : Header
  payload : List UInt8
  deriving DecidableEq, Repr

namespace Event

def ofFrame (frame : Frame) : Event := ⟨frame.header, frame.payload⟩

def bytes (event : Event) : List UInt8 := event.header.raw :: event.payload

@[simp] theorem bytes_ofFrame (frame : Frame) : (ofFrame frame).bytes = frame.bytes :=
  frame.bytes_eq.symm

end Event

/-- The event that a frame carries, or nothing if the frame is a response. -/
def Frame.event? (frame : Frame) : Option Event :=
  if frame.header.isEvent then some (Event.ofFrame frame) else none

end EcLink
