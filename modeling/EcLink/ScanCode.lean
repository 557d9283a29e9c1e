/-!
# From scan codes to key codes

The controller reports keys by scan codes of seven bits, in two sets. The first set goes with
two-byte events, the second, "extended" one with three-byte events. Up to the keypad point the
codes of the first set coincide with the key codes; everything else is listed. A scan code
without a key has the reserved key code zero.
-/

namespace EcLink

/-! ### Key codes that the tables name -/

namespace Key

def reserved : UInt16 := 0
def grave : UInt16 := 41
def keypadPoint : UInt16 := 83
def angleBracket : UInt16 := 86
def f11 : UInt16 := 87
def f12 : UInt16 := 88
def keypadEnter : UInt16 := 96
def rightControl : UInt16 := 97
def keypadSlash : UInt16 := 98
def systemRequest : UInt16 := 99
def rightAlt : UInt16 := 100
def home : UInt16 := 102
def up : UInt16 := 103
def pageUp : UInt16 := 104
def left : UInt16 := 105
def right : UInt16 := 106
def endKey : UInt16 := 107
def down : UInt16 := 108
def pageDown : UInt16 := 109
def insert : UInt16 := 110
def delete : UInt16 := 111
def mute : UInt16 := 113
def volumeDown : UInt16 := 114
def volumeUp : UInt16 := 115
def power : UInt16 := 116
def leftMeta : UInt16 := 125
def rightMeta : UInt16 := 126
def compose : UInt16 := 127
def sleep : UInt16 := 142
def wakeUp : UInt16 := 143
def nextSong : UInt16 := 163
def playPause : UInt16 := 164
def previousSong : UInt16 := 165
def stopDisc : UInt16 := 166

end Key

namespace ScanCode

def count : Nat := 128

/-- The keys of the first set that lie outside the run of coinciding codes. -/
def baseExceptions : List (Nat × UInt16) :=
  [(0x00, Key.grave), (0x54, Key.systemRequest), (0x56, Key.angleBracket), (0x57, Key.f11),
    (0x58, Key.f12)]

def extendedKeys : List (Nat × UInt16) :=
  [(0x10, Key.previousSong), (0x19, Key.nextSong), (0x1c, Key.keypadEnter),
    (0x1d, Key.rightControl), (0x20, Key.mute), (0x22, Key.playPause), (0x24, Key.stopDisc),
    (0x2e, Key.volumeDown), (0x30, Key.volumeUp), (0x35, Key.keypadSlash),
    (0x37, Key.systemRequest), (0x38, Key.rightAlt), (0x47, Key.home), (0x48, Key.up),
    (0x49, Key.pageUp), (0x4b, Key.left), (0x4d, Key.right), (0x4f, Key.endKey), (0x50, Key.down),
    (0x51, Key.pageDown), (0x52, Key.insert), (0x53, Key.delete), (0x5b, Key.leftMeta),
    (0x5c, Key.rightMeta), (0x5d, Key.compose), (0x5e, Key.power), (0x5f, Key.sleep),
    (0x63, Key.wakeUp)]

def base (code : Nat) : UInt16 :=
  if 1 ≤ code ∧ code ≤ Key.keypadPoint.toNat then
    UInt16.ofNat code
  else
    (baseExceptions.lookup code).getD Key.reserved

def extended (code : Nat) : UInt16 := (extendedKeys.lookup code).getD Key.reserved

def table : List (List UInt16) := [(List.range count).map base, (List.range count).map extended]

/-- The key of a scan code in one row of the tables; nothing outside them. -/
def key? (row : Nat) (code : UInt8) : Option UInt16 := do
  let keys ← table[row]?
  keys[code.toNat]?

/-- There are exactly two rows of one hundred and twenty-eight codes. -/
theorem key?_isSome_iff (row : Nat) (code : UInt8) :
    (key? row code).isSome ↔ row < 2 ∧ code.toNat < count := by
  match row with
  | 0 => simp [key?, table]
  | 1 => simp [key?, table]
  | row + 2 =>
      have houtside : key? (row + 2) code = none := rfl
      have hbeyond : ¬ row + 2 < 2 := Nat.not_lt.mpr (Nat.le_add_left 2 row)
      simp only [houtside, hbeyond, Option.isSome_none, Bool.false_eq_true, false_and]

end ScanCode

end EcLink
