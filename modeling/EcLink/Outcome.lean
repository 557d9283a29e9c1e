import EcLink.Frame
import EcLink.Hex

/-!
# How a transaction ends

One transaction on the link ends in exactly one of five ways. The controller wrote a whole
frame, or read the whole transmit payload; it stopped at a point where neither is complete; it
had nothing to say and the caller did not want to wait; or the transaction was aborted by a
fault. Only the last is an error: a transaction cut short is simply tried again.
-/

namespace EcLink

inductive Fault
  /-- The first byte of the transaction was somebody else's address. -/
  | addressMismatch (received : UInt8)
  | protocolViolation
  | noData
  | timeout
  deriving DecidableEq, Repr

def Fault.text : Fault → String
  | .addressMismatch received => "unknown address 0x" ++ Hex.byte received
  | .protocolViolation => "protocol violation"
  | .noData => "no data to write"
  | .timeout => "timeout"

/-- Whether a transaction may be given up as soon as the controller turns out to be idle. -/
inductive Mode
  | blocking
  | nonBlocking
  deriving DecidableEq, Repr

/-- The end of one transaction. -/
inductive Outcome
  | received (frame : Frame)
  | sent
  | cutShort
  | idle
  | failed (fault : Fault)
  deriving DecidableEq, Repr

namespace Outcome

/-- The wording of an outcome where another one was hoped for. -/
def text : Outcome → String
  | .received frame => "unexpected frame 0x" ++ Hex.byte frame.header.raw
  | .sent => "unexpected write"
  | .cutShort => "transaction cut short"
  | .idle => "not ready"
  | .failed fault => fault.text

def frame? : Outcome → Option Frame
  | .received frame => some frame
  | _ => none

theorem frame?_eq_some_iff {outcome : Outcome} {frame : Frame} :
    outcome.frame? = some frame ↔ outcome = .received frame := by
  cases outcome <;> simp [frame?]

end Outcome

end EcLink
