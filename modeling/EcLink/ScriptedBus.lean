import EcLink.Clocked
import EcLink.MasterScript
import EcLink.Traced

/-!
# A bus that follows a script

Each status poll takes the next step of a script: it puts the step's byte, if there is one, into
the data register and answers with the step's word. When the script is over, polls find a fixed
word and the data register keeps its byte. Bytes handed to the master go nowhere; the request
line works unless it is told not to.
-/

namespace EcLink

/-- A scripted controller with a request line. -/
structure ScriptedBus where
  steps : List ScriptStep
  /-- What polls find once the script is over. -/
  tail : Status
  data : UInt8
  tick : Nat
  lowFails : Bool
  highFails : Bool
  deriving DecidableEq, Repr

namespace ScriptedBus

def idle (tail : Status) (tick : Nat) : ScriptedBus :=
  { steps := [], tail, data := 0, tick, lowFails := false, highFails := false }

def fails (bus : ScriptedBus) : Level → Bool
  | .low => bus.lowFails
  | .high => bus.highFails

def poll (bus : ScriptedBus) : Status × ScriptedBus :=
  match bus.steps with
  | [] => (bus.tail, bus)
  | step :: rest => (step.status, { bus with steps := rest, data := step.data.getD bus.data })

def extend (steps : List ScriptStep) (bus : ScriptedBus) : ScriptedBus :=
  { bus with steps := bus.steps ++ steps }

instance : Bus ScriptedBus where
  poll := poll
  pollNanos := tick
  sample bus := (bus.data, bus)
  send _ bus := bus
  drive level bus := (!bus.fails level, bus)

end ScriptedBus

/-- A scripted bus with a clock, and everything that happens on it. -/
abbrev ScriptedBoard : Type := Traced (Clocked ScriptedBus)

namespace ScriptedBoard

def atTime (bus : ScriptedBus) (nanos : Nat) : ScriptedBoard := .watch ⟨bus, nanos⟩

def bus (board : ScriptedBoard) : ScriptedBus := board.board.bus

def nanos (board : ScriptedBoard) : Nat := board.board.nanos

def modifyBus (change : ScriptedBus → ScriptedBus) (board : ScriptedBoard) : ScriptedBoard :=
  { board with board := { board.board with bus := change board.board.bus } }

def advance (nanos : Nat) (board : ScriptedBoard) : ScriptedBoard :=
  { board with board := { board.board with nanos := board.board.nanos + nanos } }

def sentBytes (board : ScriptedBoard) : List UInt8 := board.trace.filterMap Signal.sentByte?

def levels (board : ScriptedBoard) : List Level := board.trace.filterMap Signal.level?

end ScriptedBoard

end EcLink
