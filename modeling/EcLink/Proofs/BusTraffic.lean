import EcLink.Proofs.Reactions
import EcLink.Proofs.TransactionOutcomes

/-!
# Where a link is in the traffic of a bus

The master talks to others too, and a call may end in the middle of a transaction. `Midway` says,
for every place in a transaction between two polls, in what state a link can be there, whichever
calls brought it there; and `Midway.poll` that a poll leads from one such place to the next, or to
an end that `Ends` allows. A link that is not meant goes back to waiting for its address, and it
does so **while the transaction with somebody else goes on**: any byte of the rest may be taken for
an address.
-/

namespace EcLink

/-- What the master does with whoever has this address. -/
structure BusTransaction where
  address : UInt8
  kind : MasterTransaction
  deriving DecidableEq, Repr

def BusTransaction.script (bus : BusTransaction) : List ScriptStep := bus.kind.script bus.address

/-- A transaction with somebody else in which a link finds its own address among the bytes, and then
    takes what follows for a frame. When the master reads, the bytes that a link finds are zero and
    one, so this befalls only a link with one of these two addresses. -/
inductive Misheard (own : UInt8) : BusTransaction → List UInt8 → Prop
  | written {address : UInt8} {before bytes : List UInt8} (hother : address ≠ own)
      (hbefore : own ∉ before) : Misheard own ⟨address, .writes (before ++ own :: bytes)⟩ bytes
  | read {address : UInt8} {count : Nat} {bytes : List UInt8} (hother : address ≠ own)
      (hown : own = 0 ∨ own = 1) : Misheard own ⟨address, .reads count⟩ bytes

/-- The bytes get to the link: they were written to it, or it has misheard. -/
def Reaches (own : UInt8) (bus : BusTransaction) (bytes : List UInt8) : Prop :=
  bus = ⟨own, .writes bytes⟩ ∨ Misheard own bus bytes

/-- The polls in which the master reads so many bytes and stops. -/
def readingOut (count : Nat) : List ScriptStep :=
  List.replicate count ⟨.readOut, none⟩ ++ [⟨.stopped, none⟩]

theorem script_reads (address : UInt8) (count : Nat) :
    (⟨address, .reads count⟩ : BusTransaction).script =
      ⟨.start, some address⟩ :: ⟨.written, some readCommand⟩ :: ⟨.readRequest, none⟩ ::
        readingOut count := rfl

theorem BusTransaction.script_start (bus : BusTransaction) :
    ∃ rest, bus.script = ⟨.start, some bus.address⟩ :: rest := by
  obtain ⟨address, kind⟩ := bus
  cases kind <;> exact ⟨_, rfl⟩

theorem readingOut_succ (count : Nat) :
    readingOut (count + 1) = ⟨.readOut, none⟩ :: readingOut count := rfl

/-! ### In the middle of a transaction -/

/-- A link that has no part in a read. Only with one of two addresses can it have taken itself for
    called. -/
structure Transaction.Astray (own : UInt8) (transaction : Transaction) : Prop where
  not_sending : transaction.phase ≠ .sending
  not_announcing : transaction.phase ≠ .announcing
  past : transaction.phase ≠ .address → own = 0 ∨ own = 1

theorem Transaction.astray_of_waiting {transaction : Transaction}
    (hphase : transaction.phase = .address) (own : UInt8) : transaction.Astray own := by
  refine ⟨?_, ?_, fun hpast => (hpast hphase).elim⟩ <;> simp [hphase]

/-- What the transaction in flight may be when these steps of a transaction on the bus are still to
    come. If the calls before left off in the middle of it, more may have been read of a payload
    than there is. -/
inductive Midway (own : UInt8) (interrupted : Prop) :
    BusTransaction → List ScriptStep → Transaction → Prop
  | before (bus : BusTransaction) (transaction : Transaction) :
      Midway own interrupted bus bus.script transaction
  /-- The master writes to somebody else. -/
  | ignoring {address : UInt8} {passed rest : List UInt8} {transaction : Transaction}
      (hother : address ≠ own) (hpassed : own ∉ passed) (hphase : transaction.phase = .address) :
      Midway own interrupted ⟨address, .writes (passed ++ rest)⟩ (MasterScript.writtenBytes rest)
        transaction
  | called {bus : BusTransaction} {bytes : List UInt8} {transaction : Transaction}
      (hreaches : Reaches own bus bytes) (hphase : transaction.phase = .header)
      (hinbox : transaction.inbox.bytes = []) :
      Midway own interrupted bus (MasterScript.writtenBytes bytes) transaction
  | hearing {bus : BusTransaction} {heard rest : List UInt8} {byte : UInt8}
      {transaction : Transaction} (hreaches : Reaches own bus (heard ++ byte :: rest))
      (hhearing : transaction.Hearing heard) :
      Midway own interrupted bus (MasterScript.writtenBytes (byte :: rest)) transaction
  /-- The read command is due. -/
  | commanded {count : Nat} {transaction : Transaction} (hphase : transaction.phase = .header)
      (hinbox : transaction.inbox.fill = 0) :
      Midway own interrupted ⟨own, .reads count⟩
        (⟨.written, some readCommand⟩ :: ⟨.readRequest, none⟩ :: readingOut count) transaction
  | turning {count : Nat} {transaction : Transaction} (hphase : transaction.phase = .direction)
      (hcommand : transaction.inbox.firstCell = readCommand) :
      Midway own interrupted ⟨own, .reads count⟩ (⟨.readRequest, none⟩ :: readingOut count)
        transaction
  | reading {taken left : Nat} {payload : Payload} {transaction : Transaction}
      (hphase : transaction.phase = .sending)
      (houtbox : transaction.outbox = ⟨some payload, min taken payload.bytes.length⟩)
      (hwithin : interrupted ∨ taken ≤ payload.bytes.length) :
      Midway own interrupted ⟨own, .reads (taken + left)⟩ (readingOut left) transaction
  /-- The master is about to read from somebody else. -/
  | strayCommand {address : UInt8} {count : Nat} {transaction : Transaction}
      (hother : address ≠ own) (hphase : transaction.phase = .address) :
      Midway own interrupted ⟨address, .reads count⟩
        (⟨.written, some readCommand⟩ :: ⟨.readRequest, none⟩ :: readingOut count) transaction
  | strayTurn {address : UInt8} {count : Nat} {transaction : Transaction}
      (hother : address ≠ own)
      (hphase : transaction.phase = .address ∨ (own = 1 ∧ transaction.phase = .header)) :
      Midway own interrupted ⟨address, .reads count⟩ (⟨.readRequest, none⟩ :: readingOut count)
        transaction
  | strayRead {address : UInt8} {count left : Nat} {transaction : Transaction}
      (hother : address ≠ own) (hastray : transaction.Astray own) :
      Midway own interrupted ⟨address, .reads count⟩ (readingOut left) transaction

/-- How a call may end that finds these steps left of a transaction on the bus, with this payload to
    hand out. Only two faults leave a transaction with the link itself before it is over. -/
inductive Ends (own : UInt8) (interrupted : Prop) (bus : BusTransaction) (payload : Payload) :
    List ScriptStep → Outcome → Transaction → Prop
  | leftOpen {left : List ScriptStep} {fault : Fault} {transaction : Transaction}
      (hmidway : Midway own True bus left transaction)
      (hreason : bus.address = own → fault = .timeout ∨ fault = .noData) :
      Ends own interrupted bus payload left (.failed fault) transaction
  | failed {fault : Fault} {transaction : Transaction} :
      Ends own interrupted bus payload [] (.failed fault) transaction
  | cutShort {transaction : Transaction} :
      Ends own interrupted bus payload [] .cutShort transaction
  | received {frame : Frame} {transaction : Transaction}
      (hreaches : Reaches own bus frame.bytes) :
      Ends own interrupted bus payload [] (.received frame) transaction
  | sent {count : Nat} {transaction : Transaction} (hread : bus = ⟨own, .reads count⟩)
      (hall : payload.bytes.length ≤ count)
      (hexact : interrupted ∨ count = payload.bytes.length) :
      Ends own interrupted bus payload [] .sent transaction

/-- A poll leaves the link at the next place in the transaction on the bus, or ends the call
    there. -/
def Passes (own : UInt8) (interrupted : Prop) (bus : BusTransaction) (payload : Payload)
    (rest : List ScriptStep) (status : Status) (reaction : Reaction) : Prop :=
  match reaction.verdict status with
  | none => Midway own interrupted bus rest reaction.transaction ∧
      reaction.transaction.phase ≠ .address
  | some outcome => Ends own interrupted bus payload rest outcome reaction.transaction

namespace Transaction

variable {transaction : Transaction} {status : Status} {own byte : UInt8}

theorem answer_called (hcalled : status.isStart = true ∨ transaction.phase = .address) :
    transaction.answer own status own = transaction.addressed.proceed := by
  rcases hcalled with hstart | hphase
  · rw [(Status.isStart_iff status).mp hstart]
    exact answer_start own transaction
  · unfold answer
    split
    · simp only [react, restart, if_true]
      rfl
    · simp only [react, hphase, if_true]
      rfl

theorem answer_stranger (hcalled : status.isStart = true ∨ transaction.phase = .address)
    (hother : byte ≠ own) :
    transaction.answer own status byte =
      transaction.restart.abort (.addressMismatch byte) (.unknownAddress byte) := by
  unfold answer
  split
  · simp only [react, restart, hother, if_false]
    rfl
  · rename_i hlater
    have hphase := hcalled.resolve_left hlater
    simp only [react, hphase, hother, if_false]
    rw [restart, ← hphase]

end Transaction

section Polls

variable {own : UInt8} {interrupted : Prop} {payload : Payload} {transaction : Transaction}

theorem Midway.mono {bus : BusTransaction} {todo : List ScriptStep}
    (hmidway : Midway own interrupted bus todo transaction) :
    Midway own True bus todo transaction := by
  cases hmidway with
  | before => exact .before bus transaction
  | ignoring hother hpassed hphase => exact .ignoring hother hpassed hphase
  | called hreaches hphase hinbox => exact .called hreaches hphase hinbox
  | hearing hreaches hhearing => exact .hearing hreaches hhearing
  | commanded hphase hinbox => exact .commanded hphase hinbox
  | turning hphase hcommand => exact .turning hphase hcommand
  | reading hphase houtbox hwithin => exact .reading hphase houtbox (.inl trivial)
  | strayCommand hother hphase => exact .strayCommand hother hphase
  | strayTurn hother hphase => exact .strayTurn hother hphase
  | strayRead hother hastray => exact .strayRead hother hastray

/-! ### Being called, or not -/

theorem passes_of_stranger {bus : BusTransaction} {rest : List ScriptStep} {status : Status}
    {byte : UInt8} (hcalled : status.isStart = true ∨ transaction.phase = .address)
    (hother : byte ≠ own) (haddress : bus.address ≠ own)
    (hmidway : ∀ next : Transaction, next.phase = .address →
      Midway own True bus rest next) :
    Passes own interrupted bus payload rest status (transaction.answer own status byte) := by
  rw [Transaction.answer_stranger hcalled hother]
  exact .leftOpen (hmidway _ rfl) fun hours => (haddress hours).elim

theorem poll_start {bus : BusTransaction} {rest : List ScriptStep}
    (hscript : bus.script = ⟨.start, some bus.address⟩ :: rest) :
    Passes own interrupted bus payload rest .start
      (transaction.answer own .start bus.address) := by
  obtain ⟨address, kind⟩ := bus
  by_cases hours : address = own
  · subst hours
    rw [Transaction.answer_called (.inl rfl)]
    cases kind with
    | writes bytes =>
        obtain ⟨-, rfl⟩ := List.cons.inj hscript
        exact ⟨.called (.inl rfl) rfl rfl, Phase.noConfusion⟩
    | reads count =>
        rw [script_reads] at hscript
        obtain ⟨-, rfl⟩ := List.cons.inj hscript
        exact ⟨.commanded rfl rfl, Phase.noConfusion⟩
  · apply passes_of_stranger (.inl rfl) hours hours
    intro next hphase
    cases kind with
    | writes bytes =>
        obtain ⟨-, rfl⟩ := List.cons.inj hscript
        have hignoring : Midway own True ⟨address, .writes ([] ++ bytes)⟩
            (MasterScript.writtenBytes bytes) next := .ignoring hours List.not_mem_nil hphase
        exact hignoring
    | reads count =>
        rw [script_reads] at hscript
        obtain ⟨-, rfl⟩ := List.cons.inj hscript
        exact .strayCommand hours hphase

/-! ### While the master writes -/

variable {step : ScriptStep} {rest : List ScriptStep} {found : UInt8}

theorem passes_of_open {bus : BusTransaction} {status : Status} {next : Transaction}
    {actions : List Action} (hgoesOn : status.isStop = false)
    (hmidway : Midway own interrupted bus rest next) (hphase : next.phase ≠ .address) :
    Passes own interrupted bus payload rest status ⟨next, actions, none⟩ := by
  have hopen : (⟨next, actions, none⟩ : Reaction).verdict status = none :=
    if_neg (Bool.eq_false_iff.mp hgoesOn)
  rw [Passes, hopen]
  exact ⟨hmidway, hphase⟩

/-- The master stops before a frame has begun. -/
theorem passes_of_stop {bus : BusTransaction} {next : Transaction} {actions : List Action} :
    Passes own interrupted bus payload [] .stopped ⟨next, actions, none⟩ := .cutShort

/-- To see what a poll comes to, go through what a poll can do. -/
theorem passes_of_does {bus : BusTransaction} {status : Status}
    (hopen : ∀ actions next, status.isStop = false →
      Transaction.Continues own ⟨status, found⟩ transaction actions next →
      Midway own interrupted bus rest next ∧ next.phase ≠ .address)
    (hends : ∀ actions outcome next,
      Transaction.Concludes own ⟨status, found⟩ transaction actions outcome next →
      Ends own interrupted bus payload rest outcome next) :
    Passes own interrupted bus payload rest status (transaction.answer own status found) := by
  have hdoes := Transaction.answer_does own ⟨status, found⟩ transaction
  unfold Transaction.Does at hdoes
  unfold Passes
  cases hverdict : (transaction.answer own status found).verdict status with
  | none =>
      have hgoesOn : status.isStop = false := by
        rw [Bool.eq_false_iff]
        intro hstop
        rw [Reaction.verdict, hstop, if_pos rfl] at hverdict
        split at hverdict <;> cases hverdict
      rw [hverdict] at hdoes
      exact hopen _ _ hgoesOn hdoes
  | some outcome =>
      rw [hverdict] at hdoes
      exact hends _ _ _ hdoes

theorem poll_ignoring {address : UInt8} {passed bytes : List UInt8} (hother : address ≠ own)
    (hpassed : own ∉ passed) (hphase : transaction.phase = .address)
    (hstep : MasterScript.writtenBytes bytes = step :: rest)
    (hfound : ∀ byte, step.data = some byte → found = byte) :
    Passes own interrupted ⟨address, .writes (passed ++ bytes)⟩ payload rest step.status
      (transaction.answer own step.status found) := by
  -- With the last byte, or none, it is all over, whatever the link finds.
  have hlast : Passes own interrupted ⟨address, .writes (passed ++ bytes)⟩ payload [] .stopped
      (transaction.answer own .stopped found) := by
    by_cases hours : found = own
    · rw [hours, Transaction.answer_called (.inr hphase)]
      exact passes_of_stop
    · rw [Transaction.answer_stranger (.inr hphase) hours]
      exact .failed
  cases bytes with
  | nil =>
      obtain ⟨rfl, rfl⟩ := List.cons.inj hstep
      exact hlast
  | cons byte more =>
      cases more with
      | nil =>
          obtain ⟨rfl, rfl⟩ := List.cons.inj hstep
          exact hlast
      | cons second more =>
          change ⟨.written, some byte⟩ :: MasterScript.writtenBytes (second :: more) = _ at hstep
          obtain ⟨rfl, rfl⟩ := List.cons.inj hstep
          obtain rfl := hfound byte rfl
          dsimp only
          by_cases hours : found = own
          · subst hours
            rw [Transaction.answer_called (.inr hphase)]
            exact passes_of_open rfl (.called (.inr (.written hother hpassed)) rfl rfl)
              Phase.noConfusion
          · refine passes_of_stranger (.inr hphase) hours hother ?_
            intro next hwaits
            have hnot : own ∉ passed ++ [found] := by
              simp only [List.mem_append, List.mem_singleton, not_or]
              exact ⟨hpassed, fun hsame => hours hsame.symm⟩
            have hbytes : passed ++ found :: second :: more =
                (passed ++ [found]) ++ second :: more := by simp
            rw [hbytes]
            exact .ignoring hother hnot hwaits

theorem poll_called {bus : BusTransaction} {bytes : List UInt8} (hreaches : Reaches own bus bytes)
    (hphase : transaction.phase = .header) (hinbox : transaction.inbox.bytes = [])
    (hstep : MasterScript.writtenBytes bytes = step :: rest)
    (hfound : ∀ byte, step.data = some byte → found = byte) :
    Passes own interrupted bus payload rest step.status
      (transaction.answer own step.status found) := by
  have hlast : Passes own interrupted bus payload [] .stopped
      (transaction.answer own .stopped found) := by
    rw [Transaction.answer_header hphase own .stopped rfl]
    exact passes_of_stop
  cases bytes with
  | nil =>
      obtain ⟨rfl, rfl⟩ := List.cons.inj hstep
      exact hlast
  | cons byte more =>
      cases more with
      | nil =>
          obtain ⟨rfl, rfl⟩ := List.cons.inj hstep
          exact hlast
      | cons second more =>
          change ⟨.written, some byte⟩ :: MasterScript.writtenBytes (second :: more) = _ at hstep
          obtain ⟨rfl, rfl⟩ := List.cons.inj hstep
          obtain rfl := hfound byte rfl
          dsimp only
          rw [Transaction.answer_header hphase own .written rfl]
          have hhearing := Transaction.hearing_header hinbox found
          have hreaches' : Reaches own bus ([found] ++ second :: more) := hreaches
          exact passes_of_open rfl (.hearing hreaches' hhearing) Phase.noConfusion

theorem Transaction.Hearing.phase_ne {heard : List UInt8} (hhearing : transaction.Hearing heard) :
    transaction.phase ≠ .address := by
  rw [hhearing.phase]
  split <;> exact Phase.noConfusion

theorem poll_hearing {bus : BusTransaction} {heard more : List UInt8} {byte : UInt8}
    (hreaches : Reaches own bus (heard ++ byte :: more)) (hhearing : transaction.Hearing heard)
    (hstep : MasterScript.writtenBytes (byte :: more) = step :: rest)
    (hfound : ∀ byte, step.data = some byte → found = byte) :
    Passes own interrupted bus payload rest step.status
      (transaction.answer own step.status found) := by
  cases more with
  | nil =>
      obtain ⟨rfl, rfl⟩ := List.cons.inj hstep
      obtain rfl := hfound byte rfl
      obtain ⟨hverdict, -, -⟩ := hhearing.last own found
      simp only [Passes, hverdict]
      unfold writeOutcome
      split
      · exact .received hreaches
      · exact .cutShort
  | cons second more =>
      change ⟨.written, some byte⟩ :: MasterScript.writtenBytes (second :: more) = _ at hstep
      obtain ⟨rfl, rfl⟩ := List.cons.inj hstep
      obtain rfl := hfound byte rfl
      obtain ⟨next, hanswer, hhearing', -⟩ := hhearing.more own found
      dsimp only
      rw [hanswer]
      have hbytes : heard ++ found :: second :: more = (heard ++ [found]) ++ second :: more := by
        simp
      rw [hbytes] at hreaches
      exact passes_of_open rfl (.hearing hreaches hhearing') hhearing'.phase_ne

/-! ### While the master reads from the link -/

theorem poll_commanded {count : Nat} (hphase : transaction.phase = .header)
    (hinbox : transaction.inbox.fill = 0) :
    Passes own interrupted ⟨own, .reads count⟩ payload (⟨.readRequest, none⟩ :: readingOut count)
      .written (transaction.answer own .written readCommand) := by
  rw [Transaction.answer_header hphase own .written rfl]
  exact passes_of_open rfl (.turning rfl (Inbox.firstCell_push hinbox readCommand))
    Phase.noConfusion

theorem poll_turning {count : Nat} (hphase : transaction.phase = .direction)
    (hcommand : transaction.inbox.firstCell = readCommand) :
    Passes own interrupted ⟨own, .reads count⟩ payload (readingOut count) .readRequest
      (transaction.answer own .readRequest found) := by
  have hturns : transaction.answer own .readRequest found = transaction.turnToReading := by
    have hnew : Status.readRequest.isStart = false := rfl
    have hread : Status.readRequest.isReadRequest = true := rfl
    simp only [Transaction.answer, hnew, Bool.false_eq_true, if_false, Transaction.react, hphase,
      hread, if_true]
  rw [hturns, Transaction.turnToReading_eq hcommand]
  have hreading : Midway own interrupted ⟨own, .reads (0 + count)⟩ (readingOut count)
      { transaction with
        phase := .sending, outbox := ⟨some (offered transaction.outbox.payload), 0⟩ } :=
    .reading rfl (by rw [Nat.zero_min]) (.inr (Nat.zero_le _))
  rw [Nat.zero_add] at hreading
  exact passes_of_open rfl hreading Phase.noConfusion

theorem poll_reading {taken left : Nat} {payload : Payload} (hphase : transaction.phase = .sending)
    (houtbox : transaction.outbox = ⟨some payload, min taken payload.bytes.length⟩)
    (hwithin : interrupted ∨ taken ≤ payload.bytes.length)
    (hstep : readingOut left = step :: rest) :
    Passes own interrupted ⟨own, .reads (taken + left)⟩ payload rest step.status
      (transaction.answer own step.status found) := by
  cases left with
  | zero =>
      obtain ⟨rfl, rfl⟩ := List.cons.inj hstep
      have hstopped := Transaction.answer_stopped hphase houtbox (Nat.min_le_right _ _) own found
      simp only [Passes, Reaction.verdict, hstopped.2.1, readOutcome]
      split
      · rename_i hall
        refine .sent rfl ?_ ?_
        · omega
        · rcases hwithin with hinterrupted | hwithin
          · exact .inl hinterrupted
          · exact .inr (by omega)
      · exact .failed
  | succ left =>
      rw [readingOut_succ] at hstep
      obtain ⟨rfl, rfl⟩ := List.cons.inj hstep
      have hcount : taken + (left + 1) = taken + 1 + left := by omega
      rw [hcount]
      by_cases hless : taken < payload.bytes.length
      · have hdue : transaction.outbox.due? = some payload.bytes[taken] := by
          rw [houtbox, Nat.min_eq_left (Nat.le_of_lt hless)]
          exact List.getElem?_eq_getElem hless
        rw [Transaction.answer_readOut hphase hdue]
        refine passes_of_open rfl (.reading hphase ?_ (.inr hless)) ?_
        · rw [houtbox, Nat.min_eq_left (Nat.le_of_lt hless), Nat.min_eq_left hless]
          rfl
        · rw [hphase]
          exact Phase.noConfusion
      · -- There is nothing left to hand out, and the master goes on reading.
        have hfull : min taken payload.bytes.length = payload.bytes.length :=
          Nat.min_eq_right (Nat.le_of_not_lt hless)
        have hdue : transaction.outbox.due? = none := by
          rw [houtbox, hfull]
          exact List.getElem?_eq_none (Nat.le_refl _)
        have houtbox' : transaction.outbox =
            ⟨some payload, min (taken + 1) payload.bytes.length⟩ := by
          rw [houtbox, hfull, Nat.min_eq_right (by omega)]
        rw [Transaction.answer_sending hphase own rfl, Transaction.handOut, hdue]
        exact .leftOpen (.reading hphase houtbox' (.inl trivial)) fun _ => .inr rfl

/-! ### While the master reads from somebody else -/

theorem poll_strayCommand {address : UInt8} {count : Nat} (hother : address ≠ own)
    (hphase : transaction.phase = .address) :
    Passes own interrupted ⟨address, .reads count⟩ payload
      (⟨.readRequest, none⟩ :: readingOut count) .written
      (transaction.answer own .written readCommand) := by
  by_cases hours : readCommand = own
  · subst hours
    rw [Transaction.answer_called (.inr hphase)]
    exact passes_of_open rfl (.strayTurn hother (.inr ⟨rfl, rfl⟩)) Phase.noConfusion
  · apply passes_of_stranger (.inr hphase) hours hother
    intro next hwaits
    exact .strayTurn hother (.inl hwaits)

theorem poll_strayTurn {address : UInt8} {count : Nat} (hother : address ≠ own)
    (hphase : transaction.phase = .address ∨ (own = 1 ∧ transaction.phase = .header))
    (hfound : transaction.phase = .address → found = 0) :
    Passes own interrupted ⟨address, .reads count⟩ payload (readingOut count) .readRequest
      (transaction.answer own .readRequest found) := by
  rcases hphase with hwaits | ⟨hown, hheader⟩
  · by_cases hours : found = own
    · have hown : own = 0 := hours.symm.trans (hfound hwaits)
      subst hours
      rw [Transaction.answer_called (.inr hwaits)]
      exact passes_of_open rfl (.strayRead hother ⟨Phase.noConfusion, Phase.noConfusion,
        fun _ => .inl hown⟩) Phase.noConfusion
    · apply passes_of_stranger (.inr hwaits) hours hother
      intro next hwaits'
      exact .strayRead hother (Transaction.astray_of_waiting hwaits' own)
  · rw [Transaction.answer_header hheader own .readRequest rfl]
    exact passes_of_open rfl (.strayRead hother ⟨Phase.noConfusion, Phase.noConfusion,
      fun _ => .inr hown⟩) Phase.noConfusion

theorem Transaction.Astray.moves_on (next : Transaction) (hastray : transaction.Astray own)
    (hpast : transaction.phase ≠ .address)
    (hnext : next.phase = .direction ∨ next.phase = .receiving) :
    next.Astray own ∧ next.phase ≠ .address := by
  have hown := hastray.past hpast
  rcases hnext with hdirection | hreceiving
  · exact ⟨⟨by simp [hdirection], by simp [hdirection], fun _ => hown⟩, by simp [hdirection]⟩
  · exact ⟨⟨by simp [hreceiving], by simp [hreceiving], fun _ => hown⟩, by simp [hreceiving]⟩

theorem poll_strayReadOut {address : UInt8} {count left : Nat} (hother : address ≠ own)
    (hastray : transaction.Astray own) (hfound : transaction.phase = .address → found = 0) :
    Passes own interrupted ⟨address, .reads count⟩ payload (readingOut left) .readOut
      (transaction.answer own .readOut found) := by
  have hnew : Status.readOut.isStart ≠ true := Bool.false_ne_true
  have hstop : Status.readOut.isStop ≠ true := Bool.false_ne_true
  have hturn : Status.readOut.isReadRequest ≠ true := Bool.false_ne_true
  have hready : Status.readOut.isReady = true := rfl
  apply passes_of_does
  · intro actions next _ hcontinues
    cases hcontinues with
    | waiting hidle => exact (Bool.eq_false_iff.mp hidle hready).elim
    | called hcalled hours =>
        have hown : own = 0 := hours.symm.trans (hfound (hcalled.resolve_left hnew))
        exact ⟨.strayRead hother ⟨Phase.noConfusion, Phase.noConfusion, fun _ => .inl hown⟩,
          Phase.noConfusion⟩
    | headed hheader =>
        obtain ⟨hstill, hphase⟩ :=
          hastray.moves_on (transaction.accept found .direction) (by simp [hheader]) (.inl rfl)
        exact ⟨.strayRead hother hstill, hphase⟩
    | turned hdirection hread => exact (hturn hread).elim
    | stored hbefore =>
        have hpast : transaction.phase ≠ .address := by
          rcases hbefore with hdirection | hreceiving <;> simp [*]
        obtain ⟨hstill, hphase⟩ :=
          hastray.moves_on (transaction.accept found .receiving) hpast (.inr rfl)
        exact ⟨.strayRead hother hstill, hphase⟩
    | dropped hreceiving => exact ⟨.strayRead hother hastray, by simp [hreceiving]⟩
    | announced hannouncing => exact (hastray.not_announcing hannouncing).elim
    | handedOut hsending => exact (hastray.not_sending hsending).elim
  · intro actions outcome next hconcludes
    cases hconcludes with
    | cutShort hstopped => exact (hstop hstopped).elim
    | stranger =>
        exact .leftOpen (.strayRead hother (Transaction.astray_of_waiting rfl own))
          fun hours => (hother hours).elim
    | wrongRead hdirection hread => exact (hturn hread).elim
    | delivered hstopped => exact (hstop hstopped).elim
    | sent hstopped => exact (hstop hstopped).elim
    | earlyStop hstopped => exact (hstop hstopped).elim
    | exhausted hgoesOn hsending => exact (hastray.not_sending hsending).elim

theorem poll_strayStop {address : UInt8} {count : Nat} (hother : address ≠ own)
    (hastray : transaction.Astray own) :
    Passes own interrupted ⟨address, .reads count⟩ payload [] .stopped
      (transaction.answer own .stopped found) := by
  apply passes_of_does
  · intro actions next hgoesOn
    cases hgoesOn
  · intro actions outcome next hconcludes
    cases hconcludes with
    | cutShort => exact .cutShort
    | delivered hstop hphase =>
        have hpast : transaction.phase ≠ .address := by
          rcases hphase with hdirection | hreceiving <;> simp [*]
        exact .received (.inr (.read hother (hastray.past hpast)))
    | sent hstop hsending => exact (hastray.not_sending hsending).elim
    | _ => exact .failed

/-! ### Any poll -/

/-- **A poll leads from one place in a transaction to the next**, or ends the call as it may. Where
    the link waits to be called and the master does not write, it finds a zero. -/
theorem Midway.poll {bus : BusTransaction}
    (hmidway : Midway own interrupted bus (step :: rest) transaction)
    (hdata : ∀ byte, step.data = some byte → found = byte)
    (hzero : transaction.phase = .address → step.status.isMasterWrite = false → found = 0) :
    Passes own interrupted bus (offered transaction.outbox.payload) rest step.status
      (transaction.answer own step.status found) := by
  generalize htodo : step :: rest = todo at hmidway
  cases hmidway with
  | before =>
      obtain ⟨later, hscript⟩ := bus.script_start
      rw [hscript] at htodo
      obtain ⟨rfl, rfl⟩ := List.cons.inj htodo
      obtain rfl := hdata bus.address rfl
      exact poll_start hscript
  | ignoring hother hpassed hphase => exact poll_ignoring hother hpassed hphase htodo.symm hdata
  | called hreaches hphase hinbox => exact poll_called hreaches hphase hinbox htodo.symm hdata
  | hearing hreaches hhearing => exact poll_hearing hreaches hhearing htodo.symm hdata
  | commanded hphase hinbox =>
      obtain ⟨rfl, rfl⟩ := List.cons.inj htodo
      obtain rfl := hdata readCommand rfl
      exact poll_commanded hphase hinbox
  | turning hphase hcommand =>
      obtain ⟨rfl, rfl⟩ := List.cons.inj htodo
      exact poll_turning hphase hcommand
  | reading hphase houtbox hwithin =>
      rw [houtbox]
      exact poll_reading hphase houtbox hwithin htodo.symm
  | strayCommand hother hphase =>
      obtain ⟨rfl, rfl⟩ := List.cons.inj htodo
      obtain rfl := hdata readCommand rfl
      exact poll_strayCommand hother hphase
  | strayTurn hother hphase =>
      obtain ⟨rfl, rfl⟩ := List.cons.inj htodo
      exact poll_strayTurn hother hphase fun hwaits => hzero hwaits rfl
  | @strayRead address count left _ hother hastray =>
      cases left with
      | zero =>
          obtain ⟨rfl, rfl⟩ := List.cons.inj htodo
          exact poll_strayStop hother hastray
      | succ left =>
          rw [readingOut_succ] at htodo
          obtain ⟨rfl, rfl⟩ := List.cons.inj htodo
          exact poll_strayReadOut hother hastray fun hwaits => hzero hwaits rfl

end Polls

end EcLink
