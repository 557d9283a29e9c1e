import EcLink.Dialogue

/-!
# Requests that belong to no peripheral

The controller itself can be asked a few things: to answer at all, to report events, to say which
firmware it runs. Each is a dialogue, so it can be held with anything that takes requests.
-/

namespace EcLink.SystemRequest

def noop : Dialogue (Except RequestError Unit) := .ask Payload.noop.bytes

def flag (enable : Bool) : UInt8 := if enable then 1 else 0

/-- Byte number `index` of a mask, counted from the low end. -/
def maskByte (mask : UInt32) (index : UInt32) : UInt8 := (mask >>> (8 * index)).toUInt8

def globalEvents (enable : Bool) : Dialogue (Except RequestError Unit) :=
  .ask [MessageType.sleep.code, SleepCommand.globalEvents.code, flag enable]

/-- Switch the event sources of a mask on or off. **The mask goes out as two halves of sixteen
    bits, the upper half first**, each with its low byte first. -/
def eventReporting (mask : UInt32) (enable : Bool) : Dialogue (Except RequestError Unit) :=
  .ask [MessageType.system.code, SystemCommand.configureEventReporting.code, flag enable,
    maskByte mask 2, maskByte mask 3, maskByte mask 0, maskByte mask 1]

def firmwareVersion : Dialogue (Except RequestError (Option Frame)) := do
  match ← Dialogue.ask [MessageType.control.code, ControlCommand.getFirmwareVersion.code] with
  | .ok () => return .ok (← Dialogue.collect)
  | .error error => return .error error

end EcLink.SystemRequest
