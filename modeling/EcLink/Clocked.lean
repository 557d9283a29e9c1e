import EcLink.Board

/-!
# Boards with an exact clock

A board whose time moves in only two ways: a pause takes exactly as long as was asked for, and a
status poll takes as long as the bus says. The bus itself is left open, so a statement about
`Clocked β` is about every controller and every pin, on a clock that is known.
-/

namespace EcLink

/-- Registers and request line without a clock. -/
class Bus (β : Type) extends Registers β where
  pollNanos : β → Nat
  drive : Level → β → Bool × β

/-- A bus together with the nanoseconds gone by. -/
structure Clocked (β : Type) where
  bus : β
  nanos : Nat
  deriving DecidableEq, Repr

instance {β : Type} [Bus β] : Board (Clocked β) where
  poll board :=
    let (status, bus) := Registers.poll board.bus
    (status, ⟨bus, board.nanos + Bus.pollNanos board.bus⟩)
  sample board :=
    let (byte, bus) := Registers.sample board.bus
    (byte, { board with bus })
  send byte board := { board with bus := Registers.send byte board.bus }
  drive level board :=
    let (driven, bus) := Bus.drive level board.bus
    (driven, { board with bus })
  pause nanos board := { board with nanos := board.nanos + nanos }
  now board := (Instant.ofNanos board.nanos, board)

end EcLink
