import EcLink.Notice

/-!
# One transaction, poll by poll

The controller is the bus master. It starts two kinds of transaction:

    it writes, and the host receives a frame
      [address] [header]  [byte] ... [byte] STOP

    it reads, and the host hands out its payload
      [address] [0x01] [address again, read] -> size, byte, ..., byte STOP

A stop may come with the same poll as the last byte of a frame. `Transaction` is the position in
the current transaction with what was received and what is still to be handed out, and
`Transaction.react` is its answer to one ready poll. The answer is **pure**: it lists the actions
to be taken on the board, and the outcome if the transaction is over, but takes none of them.
-/

namespace EcLink

inductive Phase
  | address
  | header
  | direction
  | receiving
  /-- The master has turned to reading, and the size byte is due. This takes no poll of its own,
      so no transaction rests here. -/
  | announcing
  | sending
  deriving DecidableEq, Repr

/-! ### What was received -/

/-- The receive buffer. Starting over only rewinds it; the cells keep their old bytes. -/
structure Inbox where
  cells : Vector UInt8 maxFrameLength
  fill : Nat
  fill_le : fill ≤ maxFrameLength
  deriving DecidableEq, Repr

namespace Inbox

def empty : Inbox := ⟨Vector.replicate maxFrameLength 0, 0, Nat.zero_le _⟩

def bytes (inbox : Inbox) : List UInt8 := inbox.cells.toList.take inbox.fill

def isFull (inbox : Inbox) : Bool := inbox.fill == maxFrameLength

def push (byte : UInt8) (inbox : Inbox) : Inbox :=
  if hroom : inbox.fill < maxFrameLength then
    ⟨inbox.cells.set inbox.fill byte, inbox.fill + 1, hroom⟩
  else
    inbox

def rewind (inbox : Inbox) : Inbox := { inbox with fill := 0, fill_le := Nat.zero_le _ }

/-- The first cell, whether it was filled in this transaction or not. -/
def firstCell (inbox : Inbox) : UInt8 := inbox.cells.get ⟨0, by decide⟩

def frame? (inbox : Inbox) : Option Frame := Frame.ofBytes? inbox.bytes

@[simp] theorem length_bytes (inbox : Inbox) : inbox.bytes.length = inbox.fill := by
  simp [bytes, inbox.fill_le]

@[simp] theorem bytes_empty : empty.bytes = [] := rfl

@[simp] theorem bytes_rewind (inbox : Inbox) : inbox.rewind.bytes = [] := rfl

@[simp] theorem isFull_iff (inbox : Inbox) :
    inbox.isFull = true ↔ inbox.bytes.length = maxFrameLength := by
  simp [isFull]

theorem bytes_push {inbox : Inbox} (hroom : inbox.bytes.length < maxFrameLength) (byte : UInt8) :
    (inbox.push byte).bytes = inbox.bytes ++ [byte] := by
  rw [length_bytes] at hroom
  have hwithin : inbox.fill < inbox.cells.toList.length := by simpa using hroom
  simp only [push, dif_pos hroom, bytes, Vector.toList_set]
  rw [List.take_add_one, List.take_set_of_le (Nat.le_refl _)]
  simp [List.getElem?_set_self hwithin]

end Inbox

/-! ### What is to be handed out -/

/-- The payload for the next read, if one is queued, and how many of its bytes are out. -/
structure Outbox where
  payload : Option Payload
  sent : Nat
  deriving DecidableEq, Repr

namespace Outbox

def empty : Outbox := ⟨none, 0⟩

def load (payload : Payload) : Outbox := ⟨some payload, 0⟩

def rewind (outbox : Outbox) : Outbox := { outbox with sent := 0 }

def due? (outbox : Outbox) : Option UInt8 := outbox.payload.bind (·.bytes[outbox.sent]?)

def advance (outbox : Outbox) : Outbox := { outbox with sent := outbox.sent + 1 }

end Outbox

/-! ### The transaction -/

structure Transaction where
  phase : Phase
  inbox : Inbox
  outbox : Outbox
  deriving DecidableEq, Repr

/-- Something to be done on the board while a transaction goes on. -/
inductive Action
  | send (byte : UInt8)
  | release
  | drop
  | tell (notice : Notice)
  deriving DecidableEq, Repr

/-- The answer to one ready poll: the next state, what to do on the way there, and the outcome if
    the transaction is over. -/
structure Reaction where
  transaction : Transaction
  actions : List Action
  outcome : Option Outcome
  deriving DecidableEq, Repr

namespace Transaction

def fresh : Transaction := ⟨.address, .empty, .empty⟩

/-- Begin again. What is queued stays queued, and is handed out from its start. -/
def restart (transaction : Transaction) : Transaction :=
  ⟨.address, transaction.inbox.rewind, transaction.outbox.rewind⟩

def unload (transaction : Transaction) : Transaction := { transaction with outbox := .empty }

def proceed (transaction : Transaction) : Reaction := ⟨transaction, [], none⟩

def abort (transaction : Transaction) (fault : Fault) (notice : Notice) : Reaction :=
  ⟨transaction, [.tell notice], some (.failed fault)⟩

def accept (transaction : Transaction) (byte : UInt8) (next : Phase) : Transaction :=
  { transaction with inbox := transaction.inbox.push byte, phase := next }

/-- A frame goes on until the master stops; then it is handed over and the buffer rewound. -/
def endOfFrame (transaction : Transaction) (status : Status) : Reaction :=
  if status.isStop then
    ⟨{ transaction with inbox := transaction.inbox.rewind }, [],
      transaction.inbox.frame?.map .received⟩
  else
    transaction.proceed

def announce (transaction : Transaction) : Reaction :=
  let size := match transaction.outbox.payload with
    | some payload => payload.sizeByte
    | none => 0
  ⟨{ transaction with phase := .sending }, [.send size, .release], none⟩

/-- Make sure that there is a payload, and start it from its first byte. -/
def prepare (transaction : Transaction) : Transaction × List Action :=
  match transaction.outbox.payload with
  | some _ => ({ transaction with outbox := transaction.outbox.rewind }, [])
  | none => ({ transaction with outbox := .load .noop }, [.tell .nothingQueued])

/-- The master has turned to reading. It may, if it has written the read command. -/
def turnToReading (transaction : Transaction) : Reaction :=
  if transaction.inbox.firstCell = readCommand then
    let (prepared, actions) := transaction.prepare
    let reaction := announce { prepared with phase := .announcing }
    { reaction with actions := actions ++ reaction.actions }
  else
    abort { transaction with phase := .address } .protocolViolation .wrongRead

/-- Hand out the next byte. The master has to stop exactly when there is none left. -/
def handOut (transaction : Transaction) (status : Status) : Reaction :=
  match transaction.outbox.due?, status.isStop with
  | some byte, false =>
      ⟨{ transaction with outbox := transaction.outbox.advance }, [.send byte], none⟩
  | none, true => ⟨transaction.unload, [], some .sent⟩
  | some _, true => transaction.abort .protocolViolation .earlyStop
  | none, false => transaction.abort .noData .nothingToSend

/-- The answer to one ready poll, given the address that is ours, the polled status, and the last
    byte that the master wrote. -/
def react (address : UInt8) (status : Status) (byte : UInt8) (transaction : Transaction) :
    Reaction :=
  match transaction.phase with
  | .address =>
      let transaction := { transaction with
        inbox := transaction.inbox.rewind, outbox := transaction.outbox.rewind }
      if byte = address then
        proceed { transaction with phase := .header }
      else
        transaction.abort (.addressMismatch byte) (.unknownAddress byte)
  | .header => (transaction.accept byte .direction).proceed
  | .direction =>
      if status.isReadRequest then
        transaction.turnToReading
      else
        (transaction.accept byte .receiving).endOfFrame status
  | .receiving =>
      if transaction.inbox.isFull then
        ⟨transaction, [.drop], none⟩
      else
        (transaction.accept byte .receiving).endOfFrame status
  | .announcing => transaction.announce
  | .sending => transaction.handOut status

end Transaction

end EcLink
