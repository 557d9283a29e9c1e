/-!
# The slave status word

Every poll of the slave block returns one 32-bit word. Four of its bits matter to the link; the
others are ignored wherever a single bit is asked for. Two situations are recognised by the
**whole word** and not by single bits: the address phase of a new transaction, and the repeated
start that turns it into a read. Other combinations that might mean a restart are not trusted.
-/

namespace EcLink

/-- One reading of the slave status register. -/
structure Status where
  word : UInt32
  deriving DecidableEq, Repr

namespace Status

/-- Set while the master reads from this side; clear while it writes. -/
def readBit : UInt32 := 0x02

def receivedBit : UInt32 := 0x04

/-- The slave interrupt is pending, so the word is valid. -/
def interruptBit : UInt32 := 0x08

def stopBit : UInt32 := 0x10

/-- Whether any bit of `mask` is set. -/
def has (status : Status) (mask : UInt32) : Bool := status.word &&& mask != 0

def isReady (status : Status) : Bool := status.has interruptBit

/-- The master is writing, so the data register holds a byte of its own. -/
def isMasterWrite (status : Status) : Bool := !status.has readBit

def isStop (status : Status) : Bool := status.has stopBit

/-- The address phase of a new transaction: exactly "interrupt" and "received". -/
def isStart (status : Status) : Bool := status.word == interruptBit ||| receivedBit

/-- The repeated start of a master read: exactly "interrupt", "read" and "received". -/
def isReadRequest (status : Status) : Bool :=
  status.word == interruptBit ||| readBit ||| receivedBit

def start : Status := ⟨interruptBit ||| receivedBit⟩

def readRequest : Status := ⟨interruptBit ||| readBit ||| receivedBit⟩

def written : Status := ⟨interruptBit⟩

def readOut : Status := ⟨interruptBit ||| readBit⟩

def stopped : Status := ⟨interruptBit ||| stopBit⟩

def quiet : Status := ⟨0⟩

theorem isStart_iff (status : Status) : status.isStart = true ↔ status = start := by
  cases status; simp [isStart, start]

theorem isReadRequest_iff (status : Status) :
    status.isReadRequest = true ↔ status = readRequest := by
  cases status; simp [isReadRequest, readRequest]

end Status

end EcLink
