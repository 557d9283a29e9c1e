import EcLink.Channel
import EcLink.Peripherals
import EcLink.SystemRequest

/-!
# The host

A host is a channel together with the peripherals that use it. It brings the link up, makes
requests, and services traffic that the controller starts by itself. After every request and
every transaction the parked events go to the peripherals that own their types, oldest first;
events that nobody owns are discarded.
-/

namespace EcLink

/-- One controller link and the peripherals on it. -/
structure Host (σ κ π δ : Type) where
  channel : Channel σ κ
  directory : Directory δ
  devices : π

namespace Host

variable {σ κ π δ : Type}

def fresh (board : σ) (console : κ) (config : Config) (devices : π) : Host σ κ π δ :=
  ⟨.ofLink (.fresh board console config), .empty, devices⟩

def config (host : Host σ κ π δ) : Config := host.channel.link.config

def diagnostics (host : Host σ κ π δ) : Diagnostics := host.channel.link.diagnostics

def takeResponse (host : Host σ κ π δ) : Option Frame × Host σ κ π δ :=
  let (response, channel) := host.channel.takeResponse
  (response, { host with channel })

variable [Console κ]

def tell (notice : Notice) (host : Host σ κ π δ) : Host σ κ π δ :=
  { host with channel := host.channel.tell notice }

/-- Register a peripheral; a refusal is reported and changes nothing else. -/
def register (messageType : UInt8) (owner : δ) (host : Host σ κ π δ) :
    Except Refusal Unit × Host σ κ π δ :=
  match host.directory.register messageType owner with
  | .ok directory => (.ok (), { host with directory })
  | .error refusal => (.error refusal, host.tell (.registrationRefused refusal))

def reportFailure (word : RequestError → Notice) (result : Except RequestError Unit)
    (host : Host σ κ π δ) : Host σ κ π δ :=
  match result with
  | .ok () => host
  | .error error => host.tell (word error)

/-! ### Dispatching -/

section Dispatching

variable [Peripherals π δ]

def deliver (host : Host σ κ π δ) (frame : Frame) : Host σ κ π δ :=
  let (_, devices, notices) := host.directory.dispatch frame host.devices
  notices.foldl (fun host notice => host.tell notice) { host with devices }

/-- Hand all parked events to their owners, oldest first. -/
def dispatchPending (host : Host σ κ π δ) : Host σ κ π δ :=
  host.channel.pending.frames.foldl deliver
    { host with channel := { host.channel with pending := .empty } }

end Dispatching

/-! ### Talking without dispatching -/

variable [Board σ]

def receiveQuietly (polls : Nat) (mode : Mode) (host : Host σ κ π δ) :
    Option (Outcome × Host σ κ π δ) := do
  let (outcome, channel) ← host.channel.receive polls mode
  some (outcome, { host with channel })

/-- Carry out a dialogue with the controller, leaving the events parked. -/
def converseQuietly {α : Type} (polls : Nat) (dialogue : Dialogue α) (host : Host σ κ π δ) :
    Option (α × Host σ κ π δ) := do
  let (result, channel) ← host.channel.converse polls dialogue
  some (result, { host with channel })

/-! ### The requests of start-up -/

def ping (polls : Nat) (host : Host σ κ π δ) : Option (Host σ κ π δ) := do
  let (result, host) ← host.converseQuietly polls SystemRequest.noop
  some (host.reportFailure .noopFailed result)

def enableGlobalEvents (polls : Nat) (host : Host σ κ π δ) : Option (Host σ κ π δ) :=
  if host.config.globalEvents then do
    let (result, host) ← host.converseQuietly polls (SystemRequest.globalEvents true)
    some (host.reportFailure .globalEventsFailed result)
  else
    some host

def reportFirmware (polls : Nat) (host : Host σ κ π δ) : Option (Host σ κ π δ) := do
  let (result, host) ← host.converseQuietly polls SystemRequest.firmwareVersion
  match result with
  | .ok (some version) => some (host.tell (.firmware version.payload))
  | .ok none => some (host.tell .firmwareUnknown)
  | .error error => some (host.tell (.firmwareFailed error))

def enableSource (polls : Nat) (host : Host σ κ π δ) (source : UInt32) :
    Option (Host σ κ π δ) := do
  let (result, host) ← host.converseQuietly polls (SystemRequest.eventReporting source true)
  some (host.reportFailure (.sourceFailed source) result)

/-- The single bits of a mask that are set, in ascending order. -/
def sources (mask : UInt32) : List UInt32 :=
  ((List.range 32).map fun bit => 1 <<< UInt32.ofNat bit).filter fun source => mask &&& source != 0

/-! ### Requests and events -/

variable [Peripherals π δ]

/-- Make a request, and dispatch what came in meanwhile. -/
def request (polls : Nat) (bytes : List UInt8) (host : Host σ κ π δ) :
    Option (Except RequestError Unit × Host σ κ π δ) := do
  let (result, channel) ← host.channel.request polls bytes
  some (result, { host with channel }.dispatchPending)

def requester (polls : Nat) : Requester (Host σ κ π δ) where
  request := request polls
  takeResponse := takeResponse
  tell := tell

def converse {α : Type} (polls : Nat) (dialogue : Dialogue α) (host : Host σ κ π δ) :
    Option (α × Host σ κ π δ) :=
  dialogue.run (requester polls) host

/-- Service traffic that the controller starts, at most `reads` transactions, as long as each one
    delivers something or is merely cut short. -/
def serviceEvents (polls : Nat) : (reads : Nat) → Host σ κ π δ → Option (Host σ κ π δ)
  | 0, host => some host
  | reads + 1, host => do
      let (outcome, host) ← host.receiveQuietly polls .nonBlocking
      let host := host.dispatchPending
      match outcome with
      | .received _ => serviceEvents polls reads host
      | .cutShort => serviceEvents polls reads host
      | .sent => some (host.tell .unsolicitedRead)
      | .idle => some host
      | .failed fault => some (host.tell (.pollFailed fault))

def pollEvents (polls : Nat) (host : Host σ κ π δ) : Option (Host σ κ π δ) :=
  host.serviceEvents polls host.config.maxEventReads.toNat

/-! ### Start-up -/

def flush (polls : Nat) (host : Host σ κ π δ) : Option (Host σ κ π δ) := do
  let (outcome, host) ← host.receiveQuietly polls .nonBlocking
  match outcome with
  | .failed fault => some (host.tell (.flushFailed fault)).dispatchPending
  | _ => some host.dispatchPending

/-- Bring the owner of a message type up, if it has one, and dispatch what came in meanwhile. -/
def bringUp (polls : Nat) (host : Host σ κ π δ) (messageType : UInt8) :
    Option (Host σ κ π δ) :=
  match host.directory.owner? messageType with
  | none => some host
  | some owner => do
      let (devices, host) ← host.converseQuietly polls (Peripherals.bringUp owner host.devices)
      some { host with devices }.dispatchPending

def messageTypes : List UInt8 := (List.range messageTypeCount).map UInt8.ofNat

/-- Bring the link up, then every registered peripheral in the order of the message types. What
    fails along the way is reported, and start-up goes on. -/
def start (polls : Nat) (host : Host σ κ π δ) : Option (Host σ κ π δ) := do
  let host ← host.flush polls
  let host ← host.ping polls
  let host ← host.enableGlobalEvents polls
  let host ← host.reportFirmware polls
  let host ← (sources host.config.eventReporting).foldlM (enableSource polls) host
  let host ← messageTypes.foldlM (bringUp polls) host.dispatchPending
  some (host.tell .initialized)

end Host

end EcLink
