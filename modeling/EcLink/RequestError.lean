import EcLink.Payload
import EcLink.Tally

/-!
# Why a request failed

A request either has a length that cannot be sent, or it was tried the configured number of
times without success. In the second case the error names the half of the exchange in which the
**last** attempt failed, and carries the failure counts over all attempts.
-/

namespace EcLink

/-- Failed steps over all attempts of one request. -/
structure FailureCounts where
  send : Tally 255
  receive : Tally 255
  signal : Tally 255
  deriving DecidableEq, Repr

inductive RequestError
  | invalidLength (length : Nat)
  /-- Out of attempts; the last one failed while the controller was to read the request. -/
  | notSent (counts : FailureCounts)
  /-- Out of attempts; the last one failed while waiting for the reply. -/
  | noReply (counts : FailureCounts)
  deriving DecidableEq, Repr

def FailureCounts.text (counts : FailureCounts) : String :=
  s!"(send: {counts.send.count}, recv: {counts.receive.count}, gpio: {counts.signal.count})"

namespace RequestError

/-- The failure counts, which a request that was never tried does not have. -/
def counts? : RequestError → Option FailureCounts
  | .invalidLength _ => none
  | .notSent counts => some counts
  | .noReply counts => some counts

def text : RequestError → String
  | .invalidLength length => s!"invalid request length {length} (1..={maxPayloadLength})"
  | .notSent counts => "request failed " ++ counts.text
  | .noReply counts => "response failed " ++ counts.text

end RequestError

end EcLink
