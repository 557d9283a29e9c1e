import EcLink.Config
import EcLink.Transaction

/-!
# The link

A link owns a board, a console and the transaction in flight, and carries out one transaction at
a time by polling. Every call first lets the bus settle. From then on it polls until the
transaction is over or too much time has gone by since the call began, pausing only after polls
that found nothing. A transaction that one call leaves unfinished is picked up by the next.

Polling need not end by itself: a board may never time out. `Link.transact` is therefore given a
number of polls, and answers nothing at all if they do not suffice. **Whatever it answers does not
depend on that number**, which only says how long one is willing to watch.
-/

namespace EcLink

def counterCeiling : Nat := 0xffffffff

structure Diagnostics where
  dropped : Tally counterCeiling
  signalFailures : Tally counterCeiling
  lastStatus : Option Status
  deriving DecidableEq, Repr

def Diagnostics.clear : Diagnostics := ⟨.zero, .zero, none⟩

/-- One connection to a controller. -/
structure Link (σ κ : Type) where
  board : σ
  console : κ
  config : Config
  transaction : Transaction
  diagnostics : Diagnostics

/-- What one poll led to: the transaction is over, or there will be another poll, with the byte
    that the master last wrote. -/
inductive Turn
  | finished (outcome : Outcome)
  | again (byte : UInt8)
  deriving DecidableEq, Repr

namespace Link

variable {σ κ : Type}

def fresh (board : σ) (console : κ) (config : Config) : Link σ κ :=
  ⟨board, console, config, .fresh, .clear⟩

def tell [Console κ] (notice : Notice) (link : Link σ κ) : Link σ κ :=
  { link with console := Console.tell notice link.console }

/-! ### Queueing -/

def load (payload : Payload) (link : Link σ κ) : Link σ κ :=
  { link with transaction := { link.transaction with outbox := .load payload } }

/-- Queue bytes for the next read of the master; refused, without any change, if their number is
    not that of a payload. -/
def queue (bytes : List UInt8) (link : Link σ κ) : Except RequestError (Link σ κ) :=
  match Payload.ofBytes? bytes with
  | some payload => .ok (link.load payload)
  | none => .error (.invalidLength bytes.length)

def unload (link : Link σ κ) : Link σ κ :=
  { link with transaction := link.transaction.unload }

/-! ### Looking at the board -/

variable [Board σ]

def poll (link : Link σ κ) : Status × Link σ κ :=
  let (status, board) := Registers.poll link.board
  (status, { link with
    board, diagnostics := { link.diagnostics with lastStatus := some status } })

/-- The byte to react to: a fresh one while the master writes, else the last one. -/
def freshByte (status : Status) (byte : UInt8) (link : Link σ κ) : UInt8 × Link σ κ :=
  if status.isMasterWrite then
    let (sampled, board) := Registers.sample link.board
    (sampled, { link with board })
  else
    (byte, link)

def isLate (start : Instant) (link : Link σ κ) : Bool × Link σ κ :=
  let (now, board) := Board.now link.board
  (link.config.timeoutMillis.toNat < now.since start, { link with board })

def waitOn (start : Instant) (mode : Mode) (byte : UInt8) (link : Link σ κ) : Turn × Link σ κ :=
  match mode with
  | .nonBlocking => (.finished .idle, link)
  | .blocking =>
      let (late, link) := link.isLate start
      if late then
        (.finished (.failed .timeout), link)
      else
        let nanos := link.config.pollMicros.toNat * Instant.nanosPerMicro
        (.again byte, { link with board := Board.pause nanos link.board })

def settle (link : Link σ κ) : Instant × Link σ κ :=
  let (start, board) := Board.now link.board
  let nanos := link.config.settleMillis.toNat * Instant.nanosPerMilli
  (start, { link with board := Board.pause nanos board })

/-! ### Acting on the board -/

variable [Console κ]

/-- Drive the request line, count and report a failure, and tell whether it worked. -/
def drive (level : Level) (link : Link σ κ) : Bool × Link σ κ :=
  let (worked, board) := Board.drive level link.board
  let link := { link with board }
  if worked then
    (true, link)
  else
    let diagnostics := { link.diagnostics with
      signalFailures := link.diagnostics.signalFailures.bump }
    (false, { link with diagnostics }.tell (.lineStuck level))

def assertRequest (link : Link σ κ) : Bool × Link σ κ := link.drive .low

def act (link : Link σ κ) : Action → Link σ κ
  | .send byte => { link with board := Registers.send byte link.board }
  | .release => (link.drive .high).2
  | .drop =>
      let diagnostics := { link.diagnostics with dropped := link.diagnostics.dropped.bump }
      { link with diagnostics }.tell .inboxFull
  | .tell notice => link.tell notice

def follow (reaction : Reaction) (link : Link σ κ) : Link σ κ :=
  reaction.actions.foldl act { link with transaction := reaction.transaction }

/-- React to a ready poll. A stop ends the call even where the reaction does not, and a bus that
    is stuck at "ready" runs into the time limit. -/
def respond (start : Instant) (status : Status) (byte : UInt8) (link : Link σ κ) :
    Turn × Link σ κ :=
  let (byte, link) := link.freshByte status byte
  let transaction := if status.isStart then link.transaction.restart else link.transaction
  let reaction := transaction.react link.config.address status byte
  let link := link.follow reaction
  match reaction.outcome with
  | some outcome => (.finished outcome, link)
  | none =>
      if status.isStop then
        (.finished .cutShort, link)
      else
        let (late, link) := link.isLate start
        if late then (.finished (.failed .timeout), link) else (.again byte, link)

def turn (start : Instant) (mode : Mode) (byte : UInt8) (link : Link σ κ) : Turn × Link σ κ :=
  let (status, link) := link.poll
  if status.isReady then link.respond start status byte else link.waitOn start mode byte

/-! ### One transaction -/

/-- Poll until the transaction is over, at most so many times. Only the first poll can find that
    there is nothing to wait for. -/
def turns (start : Instant) : Nat → Mode → UInt8 → Link σ κ → Option (Outcome × Link σ κ)
  | 0, _, _, _ => none
  | polls + 1, mode, byte, link =>
      match link.turn start mode byte with
      | (.finished outcome, link) => some (outcome, link)
      | (.again byte, link) => turns start polls .blocking byte link

/-- Carry out one transaction, or what is left of one; nothing if the polls do not suffice. Until
    the master writes in this call, the byte to react to is zero. -/
def transact (polls : Nat) (mode : Mode) (link : Link σ κ) : Option (Outcome × Link σ κ) :=
  let (start, link) := link.settle
  link.turns start polls mode 0

theorem turns_mono {start : Instant} {polls more : Nat} (hle : polls ≤ more) {mode : Mode}
    {byte : UInt8} {link after : Link σ κ} {outcome : Outcome}
    (hdone : link.turns start polls mode byte = some (outcome, after)) :
    link.turns start more mode byte = some (outcome, after) := by
  induction polls generalizing more mode byte link with
  | zero => cases hdone
  | succ polls ih =>
      obtain ⟨rest, rfl⟩ : ∃ rest, more = rest + 1 := ⟨more - 1, by omega⟩
      rw [turns] at hdone ⊢
      split at hdone
      case h_1 hstep => simpa only [hstep] using hdone
      case h_2 hstep => exact ih (by omega) hdone

theorem transact_mono {polls more : Nat} (hle : polls ≤ more) {mode : Mode}
    {link after : Link σ κ} {outcome : Outcome}
    (hdone : link.transact polls mode = some (outcome, after)) :
    link.transact more mode = some (outcome, after) :=
  turns_mono hle hdone

end Link

end EcLink
