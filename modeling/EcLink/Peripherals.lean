import EcLink.Dialogue
import EcLink.Directory

/-!
# Peripherals

A peripheral is brought up once, and from then on is handed the events of its message type. All
peripherals of a host are **one state** of type `π`, in which each is known by a name of type `δ`.
So they may share what they like, and the host needs to know nothing about them but how they are
brought up and what they make of an event.
-/

namespace EcLink

/-- Peripherals named by `δ`, with all their state in `π`. -/
class Peripherals (π : Type) (δ : outParam Type) where
  bringUp : δ → π → Dialogue π
  handle : δ → Event → π → π × List Notice

/-- Hand an event frame to the owner of its type, if there is one, and tell whether there was. -/
def Directory.dispatch {π δ : Type} [Peripherals π δ] (directory : Directory δ) (frame : Frame)
    (devices : π) : Bool × π × List Notice :=
  match directory.route frame with
  | none => (false, devices, [])
  | some (owner, event) => (true, Peripherals.handle owner event devices)

theorem Directory.dispatch_response {π δ : Type} [Peripherals π δ] (directory : Directory δ)
    {frame : Frame} (hresponse : frame.event? = none) (devices : π) :
    directory.dispatch frame devices = (false, devices, []) := by
  simp [Directory.dispatch, Directory.route, hresponse]

end EcLink
