import EcLink.Board
import EcLink.Directory
import EcLink.Outcome
import EcLink.RequestError

/-!
# Notices and consoles

What the link has to tell an operator is a `Notice`: a cause, whose wording is fixed in one
place. Where notices go is up to a console. **A console is only ever told; nothing is ever read
back from it**, which is why no console can influence the link.
-/

namespace EcLink

inductive Severity
  | debug
  | error
  deriving DecidableEq, Repr

inductive Speaker
  | link
  | peripheral
  deriving DecidableEq, Repr

/-- Something worth telling an operator. -/
inductive Notice
  | unknownAddress (received : UInt8)
  | wrongRead
  | nothingQueued
  | inboxFull
  | earlyStop
  | nothingToSend
  | lineStuck (level : Level)
  | attemptNotSent (attempt : Nat) (outcome : Outcome)
  | attemptUnanswered (attempt : Nat) (outcome : Outcome)
  | requestFailed (error : RequestError)
  | eventEvicted
  | registrationRefused (refusal : Refusal)
  | flushFailed (fault : Fault)
  | noopFailed (error : RequestError)
  | globalEventsFailed (error : RequestError)
  | firmware (version : List UInt8)
  | firmwareUnknown
  | firmwareFailed (error : RequestError)
  | sourceFailed (source : UInt32) (error : RequestError)
  | initialized
  | unsolicitedRead
  | pollFailed (fault : Fault)
  | remark (severity : Severity) (text : String)
  | peripheral (severity : Severity) (text : String)
  deriving DecidableEq, Repr

namespace Notice

def severity : Notice → Severity
  | .unknownAddress _ => .error
  | .wrongRead => .error
  | .nothingQueued => .debug
  | .inboxFull => .error
  | .earlyStop => .error
  | .nothingToSend => .error
  | .lineStuck _ => .error
  | .attemptNotSent _ _ => .debug
  | .attemptUnanswered _ _ => .debug
  | .requestFailed _ => .error
  | .eventEvicted => .error
  | .registrationRefused _ => .error
  | .flushFailed _ => .debug
  | .noopFailed _ => .error
  | .globalEventsFailed _ => .error
  | .firmware _ => .debug
  | .firmwareUnknown => .debug
  | .firmwareFailed _ => .error
  | .sourceFailed _ _ => .error
  | .initialized => .debug
  | .unsolicitedRead => .debug
  | .pollFailed _ => .debug
  | .remark severity _ => severity
  | .peripheral severity _ => severity

def speaker : Notice → Speaker
  | .peripheral _ _ => .peripheral
  | _ => .link

def text : Notice → String
  | .unknownAddress received => "NVEC io: unknown addr 0x" ++ Hex.byte received
  | .wrongRead => "NVEC io: wrong read"
  | .nothingQueued => "NVEC io: tx buffer is empty, sending no-op"
  | .inboxFull => "NVEC io: read buffer is full"
  | .earlyStop => "NVEC io: stop before end of data"
  | .nothingToSend => "NVEC io: no data to write"
  | .lineStuck .low => "NVEC io: failed to set gpio value to 0"
  | .lineStuck .high => "NVEC io: failed to set gpio value to 1"
  | .attemptNotSent attempt outcome => s!"NVEC: request attempt {attempt} not sent: {outcome.text}"
  | .attemptUnanswered attempt outcome =>
      s!"NVEC: request attempt {attempt} got no reply: {outcome.text}"
  | .requestFailed error => "NVEC: failed to perform request: " ++ error.text
  | .eventEvicted => "NVEC: event queue full, dropping oldest"
  | .registrationRefused refusal => "NVEC: " ++ refusal.text
  | .flushFailed fault => "NVEC: initial flush: " ++ fault.text
  | .noopFailed error => "NVEC: noop failed: " ++ error.text
  | .globalEventsFailed error => "NVEC: failed to enable global events: " ++ error.text
  | .firmware version => "NVEC: firmware " ++ Hex.bracketed version
  | .firmwareUnknown => "NVEC: firmware version not reported"
  | .firmwareFailed error => "NVEC: failed to get firmware version: " ++ error.text
  | .sourceFailed source error =>
      "NVEC: event 0x" ++ Hex.padded 2 source.toNat ++ " not enabled: " ++ error.text
  | .initialized => "NVEC: initialized"
  | .unsolicitedRead => "NVEC events: EC read without a request"
  | .pollFailed fault => "NVEC events: io failed: " ++ fault.text
  | .remark _ text => text
  | .peripheral _ text => text

end Notice

/-- A place where notices go. -/
class Console (κ : Type) where
  tell : Notice → κ → κ

def Console.tellAll {κ : Type} [Console κ] (notices : List Notice) (console : κ) : κ :=
  notices.foldl (fun told notice => Console.tell notice told) console

structure Silent where
  deriving DecidableEq, Repr

instance : Console Silent where
  tell _ console := console

end EcLink
