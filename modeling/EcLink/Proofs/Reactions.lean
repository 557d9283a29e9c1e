import EcLink.Proofs.PlayedTransactions

/-!
# What a poll can do

To a transaction a poll is a status and a byte. `Transaction.Continues` lists what a poll can do
that leaves the transaction open, and `Transaction.Concludes` what it can do that ends the call,
each with its condition, its actions and what it leaves behind. **There is nothing else that a poll
can do**, so what all transactions keep is shown by going through these two lists.
-/

namespace EcLink

/-! ### Meeting a poll -/

/-- What one poll found, and the byte that there was to react to. -/
structure Glimpse where
  status : Status
  byte : UInt8
  deriving DecidableEq, Repr

/-- Whether the transaction is reported as done: a frame was delivered, the payload was read, or the
    master stopped short of either. -/
def Outcome.isDone : Outcome → Bool
  | .received _ => true
  | .sent => true
  | .cutShort => true
  | _ => false

/-- The reaction to one poll, with the end of the call as its outcome. A poll that is not ready
    changes nothing. -/
def Transaction.meet (address : UInt8) (glimpse : Glimpse) (transaction : Transaction) :
    Reaction :=
  if glimpse.status.isReady then
    let reaction := transaction.answer address glimpse.status glimpse.byte
    { reaction with outcome := reaction.verdict glimpse.status }
  else
    transaction.proceed

theorem Inbox.frame?_push (inbox : Inbox) (byte : UInt8) :
    ∃ frame, (inbox.push byte).frame? = some frame := by
  have hbound := (inbox.push byte).fill_le
  have hpositive : 0 < (inbox.push byte).fill := by
    unfold push
    split
    · exact Nat.succ_pos _
    · rename_i hfull
      simp only [maxFrameLength] at hfull
      omega
  cases hframe : (inbox.push byte).frame? with
  | some frame => exact ⟨frame, rfl⟩
  | none =>
      rcases Frame.ofBytes?_eq_none_iff.mp hframe with hnone | hmany
      · rw [length_bytes] at hnone
        omega
      · rw [length_bytes] at hmany
        omega

namespace Transaction

/-- How a poll may leave a transaction open, and with what actions. -/
inductive Continues (address : UInt8) (glimpse : Glimpse) (transaction : Transaction) :
    List Action → Transaction → Prop
  | waiting (hidle : glimpse.status.isReady = false) :
      Continues address glimpse transaction [] transaction
  | called (hcalled : glimpse.status.isStart = true ∨ transaction.phase = .address)
      (hours : glimpse.byte = address) :
      Continues address glimpse transaction [] transaction.addressed
  | headed (hphase : transaction.phase = .header) (hlater : glimpse.status.isStart = false) :
      Continues address glimpse transaction [] (transaction.accept glimpse.byte .direction)
  | turned (hphase : transaction.phase = .direction)
      (hread : glimpse.status.isReadRequest = true)
      (hcommand : transaction.inbox.firstCell = readCommand) :
      Continues address glimpse transaction
        (substitution transaction.outbox.payload ++
          [.send (offered transaction.outbox.payload).sizeByte, .release])
        { transaction with
          phase := .sending, outbox := ⟨some (offered transaction.outbox.payload), 0⟩ }
  | stored (hphase : transaction.phase = .direction ∨ transaction.phase = .receiving)
      (hlater : glimpse.status.isStart = false) :
      Continues address glimpse transaction [] (transaction.accept glimpse.byte .receiving)
  | dropped (hphase : transaction.phase = .receiving) (hfull : transaction.inbox.isFull = true)
      (hlater : glimpse.status.isStart = false) :
      Continues address glimpse transaction [.drop] transaction
  | announced (hphase : transaction.phase = .announcing)
      (hlater : glimpse.status.isStart = false) :
      Continues address glimpse transaction transaction.announce.actions
        transaction.announce.transaction
  | handedOut {due : UInt8} (hphase : transaction.phase = .sending)
      (hdue : transaction.outbox.due? = some due) (hlater : glimpse.status.isStart = false) :
      Continues address glimpse transaction [.send due]
        { transaction with outbox := transaction.outbox.advance }

/-- How a poll may end a call, with what actions, and what it leaves of the transaction. -/
inductive Concludes (address : UInt8) (glimpse : Glimpse) (transaction : Transaction) :
    List Action → Outcome → Transaction → Prop
  | cutShort {actions : List Action} {next : Transaction} (hstop : glimpse.status.isStop = true)
      (hcontinues : Continues address glimpse transaction actions next) :
      Concludes address glimpse transaction actions .cutShort next
  | stranger (hcalled : glimpse.status.isStart = true ∨ transaction.phase = .address)
      (hother : glimpse.byte ≠ address) :
      Concludes address glimpse transaction [.tell (.unknownAddress glimpse.byte)]
        (.failed (.addressMismatch glimpse.byte)) transaction.restart
  | wrongRead (hphase : transaction.phase = .direction)
      (hread : glimpse.status.isReadRequest = true)
      (hcommand : transaction.inbox.firstCell ≠ readCommand) :
      Concludes address glimpse transaction [.tell .wrongRead] (.failed .protocolViolation)
        { transaction with phase := .address }
  | delivered {frame : Frame} (hstop : glimpse.status.isStop = true)
      (hphase : transaction.phase = .direction ∨ transaction.phase = .receiving)
      (hframe : (transaction.inbox.push glimpse.byte).frame? = some frame) :
      Concludes address glimpse transaction [] (.received frame)
        { transaction.accept glimpse.byte .receiving with
          inbox := (transaction.inbox.push glimpse.byte).rewind }
  | sent (hstop : glimpse.status.isStop = true) (hphase : transaction.phase = .sending)
      (hdue : transaction.outbox.due? = none) :
      Concludes address glimpse transaction [] .sent transaction.unload
  | earlyStop {due : UInt8} (hstop : glimpse.status.isStop = true)
      (hphase : transaction.phase = .sending) (hdue : transaction.outbox.due? = some due) :
      Concludes address glimpse transaction [.tell .earlyStop] (.failed .protocolViolation)
        transaction
  | exhausted (hgoesOn : glimpse.status.isStop = false) (hphase : transaction.phase = .sending)
      (hdue : transaction.outbox.due? = none) :
      Concludes address glimpse transaction [.tell .nothingToSend] (.failed .noData) transaction

/-- A reaction is one of those that leave the transaction open, or one of those that end the
    call. -/
def Does (address : UInt8) (glimpse : Glimpse) (transaction : Transaction) (reaction : Reaction) :
    Prop :=
  match reaction.verdict glimpse.status with
  | none => Continues address glimpse transaction reaction.actions reaction.transaction
  | some outcome =>
      Concludes address glimpse transaction reaction.actions outcome reaction.transaction

variable {address : UInt8} {glimpse : Glimpse} {transaction : Transaction}

theorem meet_of_idle (address : UInt8) (transaction : Transaction)
    (hidle : glimpse.status.isReady = false) :
    transaction.meet address glimpse = transaction.proceed :=
  if_neg (Bool.eq_false_iff.mp hidle)

theorem Continues.does {actions : List Action} {next : Transaction}
    (hcontinues : Continues address glimpse transaction actions next) :
    Does address glimpse transaction ⟨next, actions, none⟩ := by
  unfold Does Reaction.verdict
  cases hstop : glimpse.status.isStop with
  | false => exact hcontinues
  | true => exact .cutShort hstop hcontinues

theorem Concludes.does {actions : List Action} {outcome : Outcome} {next : Transaction}
    (hconcludes : Concludes address glimpse transaction actions outcome next) :
    Does address glimpse transaction ⟨next, actions, some outcome⟩ := hconcludes

theorem endOfFrame_does
    (hphase : transaction.phase = .direction ∨ transaction.phase = .receiving)
    (hlater : glimpse.status.isStart = false) :
    Does address glimpse transaction
      ((transaction.accept glimpse.byte .receiving).endOfFrame glimpse.status) := by
  cases hstop : glimpse.status.isStop with
  | false =>
      simp only [endOfFrame, hstop, Bool.false_eq_true, if_false]
      exact (Continues.stored hphase hlater).does
  | true =>
      obtain ⟨frame, hframe⟩ := transaction.inbox.frame?_push glimpse.byte
      simp only [endOfFrame, hstop, if_true, accept, hframe, Option.map_some]
      exact (Concludes.delivered hstop hphase hframe).does

theorem handOut_does (hphase : transaction.phase = .sending)
    (hlater : glimpse.status.isStart = false) :
    Does address glimpse transaction (transaction.handOut glimpse.status) := by
  unfold handOut
  cases hdue : transaction.outbox.due? with
  | some due =>
      cases hstop : glimpse.status.isStop with
      | false => exact (Continues.handedOut hphase hdue hlater).does
      | true => exact (Concludes.earlyStop hstop hphase hdue).does
  | none =>
      cases hstop : glimpse.status.isStop with
      | false => exact (Concludes.exhausted hstop hphase hdue).does
      | true => exact (Concludes.sent hstop hphase hdue).does

theorem react_called_does
    (hcalled : glimpse.status.isStart = true ∨ transaction.phase = .address) :
    Does address glimpse transaction
      (transaction.restart.react address glimpse.status glimpse.byte) := by
  by_cases hours : glimpse.byte = address
  · simp only [react, restart, hours, if_true]
    exact (Continues.called hcalled hours).does
  · simp only [react, restart, hours, if_false]
    exact (Concludes.stranger hcalled hours).does

/-- A transaction that is not addressed yet reacts as one that starts over. -/
theorem react_of_address (hphase : transaction.phase = .address) (address : UInt8)
    (status : Status) (byte : UInt8) :
    transaction.react address status byte = transaction.restart.react address status byte := by
  simp only [react, hphase]
  rfl

theorem react_does (hlater : glimpse.status.isStart = false) :
    Does address glimpse transaction
      (transaction.react address glimpse.status glimpse.byte) := by
  cases hphase : transaction.phase with
  | address =>
      rw [react_of_address hphase]
      exact react_called_does (.inr hphase)
  | header =>
      simp only [react, hphase]
      exact (Continues.headed hphase hlater).does
  | direction =>
      simp only [react, hphase]
      split
      · rename_i hread
        by_cases hcommand : transaction.inbox.firstCell = readCommand
        · rw [turnToReading_eq hcommand]
          exact (Continues.turned hphase hread hcommand).does
        · simp only [turnToReading, hcommand, if_false]
          exact (Concludes.wrongRead hphase hread hcommand).does
      · exact endOfFrame_does (.inl hphase) hlater
  | receiving =>
      simp only [react, hphase]
      split
      · rename_i hfull
        exact (Continues.dropped hphase hfull hlater).does
      · exact endOfFrame_does (.inr hphase) hlater
  | announcing =>
      simp only [react, hphase]
      exact (Continues.announced hphase hlater).does
  | sending =>
      simp only [react, hphase]
      exact handOut_does hphase hlater

theorem answer_does (address : UInt8) (glimpse : Glimpse) (transaction : Transaction) :
    Does address glimpse transaction
      (transaction.answer address glimpse.status glimpse.byte) := by
  unfold answer
  cases hstart : glimpse.status.isStart with
  | true => exact react_called_does (.inl hstart)
  | false => exact react_does hstart

/-- **What a poll can do that does not end a call.** -/
theorem meet_continues (hopen : (transaction.meet address glimpse).outcome = none) :
    Continues address glimpse transaction (transaction.meet address glimpse).actions
      (transaction.meet address glimpse).transaction := by
  have hdoes := answer_does address glimpse transaction
  unfold meet at hopen ⊢
  cases hready : glimpse.status.isReady with
  | false =>
      simp only [Bool.false_eq_true, if_false]
      exact .waiting hready
  | true =>
      simp only [hready, if_true] at hopen ⊢
      unfold Does at hdoes
      rw [hopen] at hdoes
      exact hdoes

/-- **What a poll can do that ends a call.** Only a ready one can. -/
theorem meet_concludes {outcome : Outcome}
    (hends : (transaction.meet address glimpse).outcome = some outcome) :
    glimpse.status.isReady = true ∧
      Concludes address glimpse transaction (transaction.meet address glimpse).actions outcome
        (transaction.meet address glimpse).transaction := by
  have hdoes := answer_does address glimpse transaction
  unfold meet at hends ⊢
  cases hready : glimpse.status.isReady with
  | false => simp [hready, proceed] at hends
  | true =>
      simp only [hready, if_true] at hends ⊢
      unfold Does at hdoes
      rw [hends] at hdoes
      exact ⟨trivial, hdoes⟩

variable {actions : List Action} {outcome : Outcome} {next : Transaction}

/-- To find nothing and to be too late is not for a transaction to say. -/
theorem Concludes.not_givenUp
    (hconcludes : Concludes address glimpse transaction actions outcome next) :
    ¬ (outcome = .idle ∨ outcome = .failed .timeout) := by
  rintro (rfl | rfl)
  · cases hconcludes
  · cases hconcludes

theorem verdict_not_givenUp {status : Status} {byte : UInt8}
    (hverdict : (transaction.answer address status byte).verdict status = some outcome) :
    ¬ (outcome = .idle ∨ outcome = .failed .timeout) := by
  have hdoes := answer_does address ⟨status, byte⟩ transaction
  unfold Does at hdoes
  rw [hverdict] at hdoes
  exact Concludes.not_givenUp hdoes

/-- A transaction is only done when the master stops. -/
theorem Concludes.stop_of_done
    (hconcludes : Concludes address glimpse transaction actions outcome next)
    (hdone : outcome.isDone = true) : glimpse.status.isStop = true := by
  cases hconcludes with
  | cutShort hstop => exact hstop
  | delivered hstop => exact hstop
  | sent hstop => exact hstop
  | stranger => cases hdone
  | wrongRead => cases hdone
  | earlyStop => cases hdone
  | exhausted => cases hdone

end Transaction

end EcLink
