import EcLink.Board

/-!
# Memory-mapped registers

The slave block of a controller chip, as sixteen words of memory. Two of them matter: the data
register, of which only the low byte is read while a whole word is written, and the status
register. Reading a register does not change it.
-/

namespace EcLink

def blockWords : Nat := 16

/-- The words of a register block. -/
structure RegisterBlock where
  words : Vector UInt32 blockWords
  deriving DecidableEq, Repr

namespace RegisterBlock

def wordBytes : Nat := 4

/-- Where the data register lies, in bytes from the start of the block. -/
def dataOffset : Nat := 0x24

/-- Where the status register lies, in bytes from the start of the block. -/
def statusOffset : Nat := 0x28

def zero : RegisterBlock := ⟨Vector.replicate blockWords 0⟩

def wordAt (block : RegisterBlock) (offset : Nat) (hinside : offset / wordBytes < blockWords) :
    UInt32 :=
  block.words[offset / wordBytes]

def poke (index : Nat) (value : UInt32) (block : RegisterBlock) : RegisterBlock :=
  ⟨block.words.setIfInBounds index value⟩

instance : Registers RegisterBlock where
  poll block := (⟨block.wordAt statusOffset (by decide)⟩, block)
  sample block := ((block.wordAt dataOffset (by decide)).toUInt8, block)
  send byte block := block.poke (dataOffset / wordBytes) byte.toUInt32

/-- What was sent is what is sampled next: both go through the data register. -/
theorem sample_send (byte : UInt8) (block : RegisterBlock) :
    (Registers.sample (Registers.send byte block)).1 = byte := by
  have hstored : (block.poke (dataOffset / wordBytes) byte.toUInt32).wordAt dataOffset (by decide) =
      byte.toUInt32 := by
    simp [poke, wordAt]
  simp [Registers.sample, Registers.send, hstored]

end RegisterBlock

end EcLink
