/-!
# Command vocabulary

A request starts with a message type, most often followed by a command of that type. The same
message types label events, where they are the low nibble of the header.
-/

namespace EcLink

inductive MessageType
  | keyboard
  | system
  | battery
  | gpio
  | sleep
  | keyboardControl
  | ps2
  | control
  | oem0
  deriving DecidableEq, Repr

namespace MessageType

def code : MessageType → UInt8
  | .keyboard => 0x00
  | .system => 0x01
  | .battery => 0x02
  | .gpio => 0x03
  | .sleep => 0x04
  | .keyboardControl => 0x05
  | .ps2 => 0x06
  | .control => 0x07
  | .oem0 => 0x0d

def all : List MessageType :=
  [.keyboard, .system, .battery, .gpio, .sleep, .keyboardControl, .ps2, .control, .oem0]

end MessageType

inductive SystemCommand
  | getStatus
  | configureEventReporting
  | acknowledgeStatus
  | configureWake
  deriving DecidableEq, Repr

namespace SystemCommand

def code : SystemCommand → UInt8
  | .getStatus => 0x00
  | .configureEventReporting => 0x01
  | .acknowledgeStatus => 0x02
  | .configureWake => 0xfd

def all : List SystemCommand :=
  [.getStatus, .configureEventReporting, .acknowledgeStatus, .configureWake]

end SystemCommand

inductive KeyboardCommand
  | configureWake
  | configureWakeKeyReporting
  | setLeds
  | enable
  | disable
  deriving DecidableEq, Repr

namespace KeyboardCommand

def code : KeyboardCommand → UInt8
  | .configureWake => 0x03
  | .configureWakeKeyReporting => 0x04
  | .setLeds => 0xed
  | .enable => 0xf4
  | .disable => 0xf5

def all : List KeyboardCommand :=
  [.configureWake, .configureWakeKeyReporting, .setLeds, .enable, .disable]

end KeyboardCommand

inductive ControlCommand
  | reset
  | selfTest
  | noop
  | getSpecVersion
  | getFirmwareVersion
  deriving DecidableEq, Repr

namespace ControlCommand

def code : ControlCommand → UInt8
  | .reset => 0x00
  | .selfTest => 0x01
  | .noop => 0x02
  | .getSpecVersion => 0x10
  | .getFirmwareVersion => 0x15

def all : List ControlCommand :=
  [.reset, .selfTest, .noop, .getSpecVersion, .getFirmwareVersion]

end ControlCommand

inductive SleepCommand
  | globalEvents
  | powerDown
  | suspend
  deriving DecidableEq, Repr

namespace SleepCommand

def code : SleepCommand → UInt8
  | .globalEvents => 0x00
  | .powerDown => 0x01
  | .suspend => 0x02

def all : List SleepCommand := [.globalEvents, .powerDown, .suspend]

end SleepCommand

inductive Ps2Command
  | send
  /-- The device's own reset, sent through `send`. -/
  | reset
  deriving DecidableEq, Repr

namespace Ps2Command

def code : Ps2Command → UInt8
  | .send => 0x01
  | .reset => 0xff

def all : List Ps2Command := [.send, .reset]

end Ps2Command

inductive EventSource
  | lidSwitch
  | powerButton
  deriving DecidableEq, Repr

namespace EventSource

def mask : EventSource → UInt32
  | .lidSwitch => 0x02
  | .powerButton => 0x80

def all : List EventSource := [.lidSwitch, .powerButton]

end EventSource

/-- The command byte that the controller writes before it turns to reading. -/
def readCommand : UInt8 := 0x01

end EcLink
