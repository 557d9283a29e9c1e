import EcLink.Dialogue
import EcLink.Link

/-!
# Requests and replies over a link

A channel makes requests of the controller. One attempt queues the payload, pulls the request
line, lets the controller read, and then receives one frame; an attempt that fails is repeated up
to the configured number of times.

Frames come in along the way, wanted or not. **A response goes into a single place and replaces
what was there; an event is parked**, to be dispatched by the host once the request is over, so
that no peripheral is called back while it waits for a reply of its own. Eight events are kept,
and a ninth pushes out the oldest.
-/

namespace EcLink

/-- Events kept between a request and the next dispatch. -/
def pendingCapacity : Nat := 8

structure Pending where
  frames : List Frame
  length_le : frames.length ≤ pendingCapacity
  deriving DecidableEq, Repr

namespace Pending

def empty : Pending := ⟨[], Nat.zero_le _⟩

def isFull (pending : Pending) : Bool := pending.frames.length == pendingCapacity

/-- Park a frame behind the others; if there is no room, the oldest goes. -/
def park (frame : Frame) (pending : Pending) : Pending where
  frames := (if pending.isFull then pending.frames.tail else pending.frames) ++ [frame]
  length_le := by
    have hbound := pending.length_le
    simp only [isFull, beq_iff_eq, List.length_append, List.length_singleton]
    split
    case isTrue hfull => rw [List.length_tail, hfull]; decide
    case isFalse hroom => exact Nat.lt_of_le_of_ne hbound hroom

def pop (pending : Pending) : Option Frame × Pending where
  fst := pending.frames.head?
  snd := ⟨pending.frames.tail, by
    have hbound := pending.length_le
    simp only [List.length_tail]; omega⟩

end Pending

structure Channel (σ κ : Type) where
  link : Link σ κ
  response : Option Frame
  pending : Pending

/-! ### Keeping count of failures -/

inductive Leg
  | send
  | receive
  deriving DecidableEq, Repr

structure Setbacks where
  send : Tally 255
  receive : Tally 255
  /-- Where the last attempt failed; an untried request counts as not sent. -/
  last : Leg
  deriving DecidableEq, Repr

namespace Setbacks

def none : Setbacks := ⟨.zero, .zero, .send⟩

def add (setbacks : Setbacks) : Leg → Setbacks
  | .send => { setbacks with send := setbacks.send.bump, last := .send }
  | .receive => { setbacks with receive := setbacks.receive.bump, last := .receive }

def error (setbacks : Setbacks) (signal : Tally 255) : RequestError :=
  let counts : FailureCounts := ⟨setbacks.send, setbacks.receive, signal⟩
  match setbacks.last with
  | .send => .notSent counts
  | .receive => .noReply counts

end Setbacks

/-- The end of one attempt. -/
inductive Attempt
  | answered
  | notSent (outcome : Outcome)
  | unanswered (outcome : Outcome)
  deriving DecidableEq, Repr

namespace Channel

variable {σ κ : Type}

def ofLink (link : Link σ κ) : Channel σ κ := ⟨link, none, .empty⟩

def takeResponse (channel : Channel σ κ) : Option Frame × Channel σ κ :=
  (channel.response, { channel with response := none })

def nextEvent (channel : Channel σ κ) : Option Frame × Channel σ κ :=
  let (frame, pending) := channel.pending.pop
  (frame, { channel with pending })

/-! ### Receiving -/

variable [Console κ]

def tell (notice : Notice) (channel : Channel σ κ) : Channel σ κ :=
  { channel with link := channel.link.tell notice }

def accept (frame : Frame) (channel : Channel σ κ) : Channel σ κ :=
  match frame.event? with
  | none => { channel with response := some frame }
  | some _ =>
      let channel := if channel.pending.isFull then channel.tell .eventEvicted else channel
      { channel with pending := channel.pending.park frame }

variable [Board σ]

def receive (polls : Nat) (mode : Mode) (channel : Channel σ κ) :
    Option (Outcome × Channel σ κ) := do
  let (outcome, link) ← channel.link.transact polls mode
  let channel := { channel with link }
  match outcome.frame? with
  | some frame => some (outcome, channel.accept frame)
  | none => some (outcome, channel)

/-! ### Requesting -/

/-- Offer a payload to the controller: queue it and pull the request line. -/
def offer (payload : Payload) (channel : Channel σ κ) : Channel σ κ :=
  { channel with link := (channel.link.load payload).assertRequest.2 }

/-- Offer the payload, have it read, and receive the reply. A frame that comes instead of the
    read is kept all the same. -/
def attempt (polls : Nat) (payload : Payload) (channel : Channel σ κ) :
    Option (Attempt × Channel σ κ) := do
  let (first, channel) ← (channel.offer payload).receive polls .blocking
  match first with
  | .sent =>
      let (second, channel) ← channel.receive polls .blocking
      match second with
      | .received _ => some (.answered, channel)
      | _ => some (.unanswered second, channel)
  | _ => some (.notSent first, channel)

/-- Make attempts until one is answered or none is left, and count the failed ones. The attempts
    are numbered from `number` on. Without an answer, the setbacks are the result. -/
def attempts (polls : Nat) (payload : Payload) :
    (left number : Nat) → Setbacks → Channel σ κ → Option (Option Setbacks × Channel σ κ)
  | 0, _, setbacks, channel => some (some setbacks, channel)
  | left + 1, number, setbacks, channel => do
      let (result, channel) ← channel.attempt polls payload
      match result with
      | .answered => some (none, channel)
      | .notSent outcome =>
          attempts polls payload left (number + 1) (setbacks.add .send)
            (channel.tell (.attemptNotSent number outcome))
      | .unanswered outcome =>
          attempts polls payload left (number + 1) (setbacks.add .receive)
            (channel.tell (.attemptUnanswered number outcome))

/-- Send a payload and receive the reply, with retries. A response left from an earlier request
    is discarded first, and nothing stays queued afterwards. -/
def exchange (polls : Nat) (payload : Payload) (channel : Channel σ κ) :
    Option (Except RequestError Unit × Channel σ κ) := do
  let failuresBefore := channel.link.diagnostics.signalFailures.count
  let (setbacks, channel) ← attempts polls payload channel.link.config.maxAttempts.toNat 1 .none
    { channel with response := none }
  let channel := { channel with link := channel.link.unload }
  match setbacks with
  | none => some (.ok (), channel)
  | some setbacks =>
      let failures := channel.link.diagnostics.signalFailures.count - failuresBefore
      let error := setbacks.error (.ofNat failures)
      some (.error error, channel.tell (.requestFailed error))

/-- Send bytes and receive the reply. Bytes that make no payload are refused before anything is
    touched. -/
def request (polls : Nat) (bytes : List UInt8) (channel : Channel σ κ) :
    Option (Except RequestError Unit × Channel σ κ) :=
  match Payload.ofBytes? bytes with
  | none => some (.error (.invalidLength bytes.length), channel)
  | some payload => channel.exchange polls payload

def requester (polls : Nat) : Requester (Channel σ κ) where
  request := request polls
  takeResponse := takeResponse
  tell := tell

def converse {α : Type} (polls : Nat) (dialogue : Dialogue α) (channel : Channel σ κ) :
    Option (α × Channel σ κ) :=
  dialogue.run (requester polls) channel

end Channel

end EcLink
