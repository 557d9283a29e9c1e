import EcLink.Journal
import EcLink.Keyboard
import EcLink.StandIn

/-!
# A keyboard on a desk

A keyboard by itself, with a journal for what it has to say. It is brought up against a stand-in,
events are handed to it directly, and its keys are read.
-/

namespace EcLink

structure Desk where
  keyboard : Keyboard
  journal : Journal

namespace Desk

def handle (event : Event) (desk : Desk) : Desk :=
  let (keyboard, notices) := desk.keyboard.handle event
  ⟨keyboard, Console.tellAll notices desk.journal⟩

def handleTimes (times : Nat) (event : Event) (desk : Desk) : Desk :=
  times.repeat (handle event) desk

/-- Bring the keyboard up against a stand-in that lets some requests fail, and list the
    requests. -/
def bringUp (failing : List Nat) (desk : Desk) : Option (List (List UInt8) × Desk) := do
  let standIn := StandIn.fresh failing desk.journal
  let ((), standIn) ← standIn.converse (Keyboard.bringUp desk.keyboard.wake)
  some (standIn.requests, { desk with journal := standIn.console })

def keyView : KeyView Desk where
  keys desk := desk.keyboard.queue
  withKeys queue desk := { desk with keyboard := { desk.keyboard with queue } }

def readKeys (arrivals : List Frame) (buffer : List Int) (desk : Desk) : Option (KeyRead × Desk) :=
  keyView.readKeys
    (fun desk => some (arrivals.foldl (fun desk frame => desk.handle (.ofFrame frame)) desk))
    buffer desk

end Desk

end EcLink
