import EcLink.KeyQueue
import EcLink.Peripherals
import EcLink.ScanCode

/-!
# The keyboard

The keyboard turns key events of the controller into key codes and queues them. A two-byte event
carries its scan code at once; a three-byte event carries a lead byte first, so **the scan code
lies at the offset that is also the row of its table**. The top bit of the byte tells a release
from a press.
-/

namespace EcLink

structure Keyboard where
  queue : KeyQueue
  wake : Bool
  deriving DecidableEq, Repr

namespace Keyboard

def fresh (wake : Bool) : Keyboard := ⟨.empty, wake⟩

def keyView : KeyView Keyboard where
  keys := queue
  withKeys queue keyboard := { keyboard with queue }

/-! ### Events -/

/-- What a keyboard has to say about an event that it does not queue. -/
inductive Complaint
  | unsupported (header : Header)
  | short
  | dropped (code : UInt16)
  deriving DecidableEq, Repr

def Complaint.notice : Complaint → Notice
  | .unsupported header =>
      .peripheral .debug ("NVEC: unsupported keyboard event 0x" ++ Hex.byte header.raw)
  | .short => .peripheral .debug "NVEC: short keyboard event"
  | .dropped code => .peripheral .debug s!"NVEC: key queue full, dropping key {code.toNat}"

def releaseBit : UInt8 := 0x80

def scanCodeMask : UInt8 := 0x7f

/-- The key that an event reports; nothing for a scan code outside the tables. -/
def keyOf (event : Event) : Except Complaint (Option KeyEvent) :=
  match event.header.sizeClass.tableRow? with
  | none => .error (.unsupported event.header)
  | some row =>
      match event.payload[row]? with
      | none => .error .short
      | some byte =>
          .ok ((ScanCode.key? row (byte &&& scanCodeMask)).map fun code =>
            ⟨code, byte &&& releaseBit != 0⟩)

def push (event : KeyEvent) (keyboard : Keyboard) : Keyboard × List Notice :=
  match keyboard.queue.push? event with
  | some queue => ({ keyboard with queue }, [])
  | none => (keyboard, [(Complaint.dropped event.code).notice])

def handle (event : Event) (keyboard : Keyboard) : Keyboard × List Notice :=
  match keyOf event with
  | .ok (some key) => keyboard.push key
  | .ok none => (keyboard, [])
  | .error complaint => (keyboard, [complaint.notice])

/-! ### Bring-up -/

structure Step where
  bytes : List UInt8
  purpose : String
  deriving DecidableEq, Repr

def commonSteps : List Step :=
  [⟨[MessageType.ps2.code, Ps2Command.send.code, Ps2Command.reset.code, 3], "reset keyboard"⟩,
    ⟨[MessageType.keyboardControl.code, KeyboardCommand.setLeds.code, 0], "clear leds"⟩,
    ⟨[MessageType.keyboardControl.code, KeyboardCommand.enable.code], "enable keyboard"⟩]

def wakeSteps : List Step :=
  [⟨[MessageType.keyboardControl.code, KeyboardCommand.configureWake.code, 1, 1],
      "configure keyboard wake"⟩,
    ⟨[MessageType.keyboardControl.code, KeyboardCommand.configureWakeKeyReporting.code, 1],
      "enable wake key reporting"⟩]

def Step.perform (step : Step) : Dialogue Unit := do
  match ← Dialogue.ask step.bytes with
  | .ok () => return ()
  | .error _ => Dialogue.say (.peripheral .error ("NVEC: failed to " ++ step.purpose))

def bringUp (wake : Bool) : Dialogue Unit := do
  (commonSteps ++ if wake then wakeSteps else []).forM Step.perform
  Dialogue.say (.peripheral .debug "NVEC: keyboard initialization finished")

instance : Peripherals Keyboard Unit where
  bringUp _ keyboard := (bringUp keyboard.wake).bind fun () => .done keyboard
  handle _ := handle

end Keyboard

end EcLink
