import EcLink.Journal
import EcLink.Operation
import EcLink.Panel
import EcLink.ScriptedBus

/-!
# The workbench

A host on a scripted board, with a panel of peripherals and a journal. Operations are carried out
one at a time, and after each one a report says where the host stands and what is new since the
report before.
-/

namespace EcLink

/-- A host under observation. -/
structure Workbench where
  host : Host ScriptedBoard Journal Panel PanelDevice
  polls : Nat
  samples : Nat

/-- Where the host stands, and what is new. -/
structure Report where
  phase : Phase
  received : Nat
  loaded : Bool
  diagnostics : Diagnostics
  pending : Nat
  signals : List Signal
  nanos : Nat
  polls : Nat
  samples : Nat
  stepsLeft : Nat
  lines : List String
  entries : List RecorderEntry

namespace Workbench

def patience : Nat := 3_000_000

def fresh (bus : ScriptedBus) (nanos : Nat) (style : Style) (config : Config) : Workbench where
  host := .fresh (.atTime bus nanos) (.blank style .labelled) config .empty
  polls := 0
  samples := 0

def link (bench : Workbench) : Link ScriptedBoard Journal := bench.host.channel.link

def modifyBoard (change : ScriptedBoard → ScriptedBoard) (bench : Workbench) : Workbench :=
  let link := { bench.link with board := change bench.link.board }
  { bench with host := { bench.host with channel := { bench.host.channel with link } } }

def perform (operation : HostOperation PanelDevice) (bench : Workbench) :
    Option (Reply × Workbench) := do
  let (reply, host) ← bench.host.perform patience operation
  some (reply, { bench with host })

/-- Put a keyboard on the panel and register it. It is there even if it is not registered. -/
def addKeyboard (messageType : UInt8) (label : Nat) (wake : Bool) (bench : Workbench) :
    Except Refusal Unit × Workbench :=
  let (device, devices) := bench.host.devices.addKeyboard label wake
  let (result, host) := { bench.host with devices }.register messageType device
  (result, { bench with host })

/-! ### Reading keys -/

def position? (label : Nat) (bench : Workbench) : Option Nat := bench.host.devices.position? label

def keyView (position : Nat) : KeyView Workbench where
  keys bench := ((bench.host.devices.keyboard? position).map (·.queue)).getD .empty
  withKeys queue bench :=
    match bench.host.devices.keyboard? position with
    | none => bench
    | some keyboard =>
        { bench with host := { bench.host with
          devices := bench.host.devices.setKeyboard position { keyboard with queue } } }

def pollEvents (bench : Workbench) : Option Workbench := do
  let host ← bench.host.pollEvents patience
  some { bench with host }

def readKeys (position : Nat) (buffer : List Int) (bench : Workbench) :
    Option (KeyRead × Workbench) :=
  (keyView position).readKeys pollEvents buffer bench

/-! ### Reporting -/

/-- Report where the host stands, and forget what is no longer new. -/
def report (bench : Workbench) : Report × Workbench :=
  let link := bench.link
  let signals := link.board.trace
  let polls := bench.polls + signals.countP Signal.isPoll
  let samples := bench.samples + signals.countP Signal.isSample
  let report : Report :=
    { phase := link.transaction.phase
      received := link.transaction.inbox.fill
      loaded := link.transaction.outbox.payload.isSome
      diagnostics := link.diagnostics
      pending := bench.host.channel.pending.frames.length
      signals
      nanos := ScriptedBoard.nanos link.board
      polls
      samples
      stepsLeft := (ScriptedBoard.bus link.board).steps.length
      lines := link.console.lines
      entries := bench.host.devices.entries }
  let link := { link with board := link.board.forget, console := link.console.forget }
  let host := { bench.host with
    channel := { bench.host.channel with link }, devices := bench.host.devices.forget }
  (report, ⟨host, polls, samples⟩)

end Workbench

end EcLink
