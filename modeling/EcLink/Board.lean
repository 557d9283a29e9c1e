import EcLink.Instant
import EcLink.Status

/-!
# The board

Everything the link touches outside itself: the status and data registers of the slave block,
the request line, and a clock that can also wait. Nothing is assumed about how a board behaves.
**Every theorem about an arbitrary board therefore holds for every controller, every pin and
every clock**, however they misbehave.
-/

namespace EcLink

inductive Level
  | low
  | high
  deriving DecidableEq, Repr

/-- The status and data registers of a slave block, as a state of type `σ` that every access may
    change. One data register serves both directions. -/
class Registers (σ : Type) where
  poll : σ → Status × σ
  sample : σ → UInt8 × σ
  send : UInt8 → σ → σ

/-- The hardware around one link. -/
class Board (σ : Type) extends Registers σ where
  drive : Level → σ → Bool × σ
  pause : Nat → σ → σ
  now : σ → Instant × σ

end EcLink
