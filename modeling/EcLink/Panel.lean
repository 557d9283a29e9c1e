import EcLink.Host
import EcLink.Keyboard

/-!
# A panel of peripherals

Recorders and keyboards side by side. A recorder does what it was told at its bring-up and writes
down everything that happens to it; all recorders write into **one** trace, so the order in which
they are served can be seen. Keyboards are numbered, and their keys can be read while the host
goes on.
-/

namespace EcLink

inductive RecorderEntry
  | broughtUp (id : Nat)
  | requested (id : Nat) (bytes : List UInt8) (result : Except RequestError Unit)
      (response : Option Frame)
  | received (id : Nat) (event : Event)

/-- A name on the panel. -/
inductive PanelDevice
  | recorder (id : Nat) (requests : List (List UInt8))
  | keyboard (position : Nat)

/-- The keyboards with their labels, and the trace of the recorders, most recent first. -/
structure Panel where
  keyboards : List (Nat × Keyboard)
  history : List RecorderEntry

namespace Panel

def empty : Panel := ⟨[], []⟩

def entries (panel : Panel) : List RecorderEntry := panel.history.reverse

def forget (panel : Panel) : Panel := { panel with history := [] }

def record (entry : RecorderEntry) (panel : Panel) : Panel :=
  { panel with history := entry :: panel.history }

def addKeyboard (label : Nat) (wake : Bool) (panel : Panel) : PanelDevice × Panel :=
  (.keyboard panel.keyboards.length,
    { panel with keyboards := panel.keyboards ++ [(label, .fresh wake)] })

def position? (label : Nat) (panel : Panel) : Option Nat :=
  panel.keyboards.findIdx? (·.1 == label)

def keyboard? (position : Nat) (panel : Panel) : Option Keyboard :=
  (panel.keyboards[position]?).map (·.2)

def setKeyboard (position : Nat) (keyboard : Keyboard) (panel : Panel) : Panel :=
  { panel with keyboards := panel.keyboards.modify position fun (label, _) => (label, keyboard) }

/-- Make the requests of a recorder and write down how each one went. -/
def recordRequests (id : Nat) (requests : List (List UInt8)) (panel : Panel) : Dialogue Panel :=
  requests.foldlM
    (fun panel bytes => do
      let result ← Dialogue.ask bytes
      let response ← Dialogue.collect
      return panel.record (.requested id bytes result response))
    (panel.record (.broughtUp id))

def bringUp (device : PanelDevice) (panel : Panel) : Dialogue Panel :=
  match device with
  | .recorder id requests => panel.recordRequests id requests
  | .keyboard position =>
      match panel.keyboard? position with
      | some keyboard => do
          Keyboard.bringUp keyboard.wake
          return panel
      | none => return panel

def handle (device : PanelDevice) (event : Event) (panel : Panel) : Panel × List Notice :=
  match device with
  | .recorder id _ => (panel.record (.received id event), [])
  | .keyboard position =>
      match panel.keyboard? position with
      | some keyboard =>
          let (keyboard, notices) := keyboard.handle event
          (panel.setKeyboard position keyboard, notices)
      | none => (panel, [])

instance : Peripherals Panel PanelDevice where
  bringUp := bringUp
  handle := handle

end Panel

end EcLink
