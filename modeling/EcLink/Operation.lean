import EcLink.Host

/-!
# Operations as data

Everything that the owner of a link, a channel or a host may ask of it, as values. A history is
then a list of operations, and a statement about every history is a statement about every list.
The operations are layered as the library is: what can be asked of a link can be asked of the
link inside a channel, and what can be asked of a channel of the channel inside a host.
-/

namespace EcLink

/-- What an operation answers. -/
inductive Reply
  | nothing
  | flag (value : Bool)
  | transacted (outcome : Outcome)
  | answered (result : Except RequestError Unit)
  | frame (frame : Option Frame)
  | version (result : Except RequestError (Option Frame))
  | registered (result : Except Refusal Unit)

inductive LinkOperation
  | transact (mode : Mode)
  | queue (bytes : List UInt8)
  | unload
  | assertRequest
  | tell (notice : Notice)

inductive ChannelOperation
  | onLink (operation : LinkOperation)
  | receive (mode : Mode)
  | request (bytes : List UInt8)
  | takeResponse
  | nextEvent
  | converse (dialogue : Dialogue Reply)

inductive HostOperation (δ : Type)
  | onChannel (operation : ChannelOperation)
  | register (messageType : UInt8) (owner : δ)
  | start
  | pollEvents
  | request (bytes : List UInt8)
  | takeResponse
  | converse (dialogue : Dialogue Reply)

variable {σ κ π δ : Type} [Board σ] [Console κ]

/-- Carry out one operation on a link; nothing if the polls do not suffice. -/
def Link.perform (polls : Nat) (link : Link σ κ) : LinkOperation → Option (Reply × Link σ κ)
  | .transact mode => do
      let (outcome, link) ← link.transact polls mode
      some (.transacted outcome, link)
  | .queue bytes =>
      match link.queue bytes with
      | .ok link => some (.answered (.ok ()), link)
      | .error error => some (.answered (.error error), link)
  | .unload => some (.nothing, link.unload)
  | .assertRequest =>
      let (worked, link) := link.assertRequest
      some (.flag worked, link)
  | .tell notice => some (.nothing, link.tell notice)

def Channel.perform (polls : Nat) (channel : Channel σ κ) :
    ChannelOperation → Option (Reply × Channel σ κ)
  | .onLink operation => do
      let (reply, link) ← channel.link.perform polls operation
      some (reply, { channel with link })
  | .receive mode => do
      let (outcome, channel) ← channel.receive polls mode
      some (.transacted outcome, channel)
  | .request bytes => do
      let (result, channel) ← channel.request polls bytes
      some (.answered result, channel)
  | .takeResponse =>
      let (response, channel) := channel.takeResponse
      some (.frame response, channel)
  | .nextEvent =>
      let (event, channel) := channel.nextEvent
      some (.frame event, channel)
  | .converse dialogue => channel.converse polls dialogue

def Host.perform [Peripherals π δ] (polls : Nat) (host : Host σ κ π δ) :
    HostOperation δ → Option (Reply × Host σ κ π δ)
  | .onChannel operation => do
      let (reply, channel) ← host.channel.perform polls operation
      some (reply, { host with channel })
  | .register messageType owner =>
      let (result, host) := host.register messageType owner
      some (.registered result, host)
  | .start => do
      let host ← host.start polls
      some (.nothing, host)
  | .pollEvents => do
      let host ← host.pollEvents polls
      some (.nothing, host)
  | .request bytes => do
      let (result, host) ← host.request polls bytes
      some (.answered result, host)
  | .takeResponse =>
      let (response, host) := host.takeResponse
      some (.frame response, host)
  | .converse dialogue => host.converse polls dialogue

/-- Carry out operations one after the other and collect the replies. -/
def performAll {ω τ : Type} (perform : τ → ω → Option (Reply × τ)) :
    List ω → τ → Option (List Reply × τ)
  | [], world => some ([], world)
  | operation :: rest, world => do
      let (reply, world) ← perform world operation
      let (replies, world) ← performAll perform rest world
      some (reply :: replies, world)

/-- **What holds of one operation holds of a whole history.** -/
theorem performAll_map {ω first second : Type} {performFirst : first → ω → Option (Reply × first)}
    {performSecond : second → ω → Option (Reply × second)} {change : first → second}
    (heach : ∀ world operation, performSecond (change world) operation =
      (performFirst world operation).map (Prod.map id change))
    (operations : List ω) (world : first) :
    performAll performSecond operations (change world) =
      (performAll performFirst operations world).map (Prod.map id change) := by
  induction operations generalizing world with
  | nil => rfl
  | cons operation later ih =>
      rw [performAll, performAll, heach]
      cases performFirst world operation with
      | none => rfl
      | some done =>
          rcases done with ⟨reply, middle⟩
          change Option.bind (performAll performSecond later (change middle)) _ =
            Option.map _ (Option.bind (performAll performFirst later middle) _)
          rw [ih]
          cases performAll performFirst later middle with
          | none => rfl
          | some done => rfl

/-! ### Dialogues with a reply of their own -/

namespace SystemRequest

def answering (dialogue : Dialogue (Except RequestError Unit)) : Dialogue Reply :=
  dialogue.bind fun result => .done (.answered result)

def askingVersion : Dialogue Reply :=
  firmwareVersion.bind fun result => .done (.version result)

def collecting : Dialogue Reply := Dialogue.collect.bind fun response => .done (.frame response)

end SystemRequest

end EcLink
