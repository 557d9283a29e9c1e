import EcLink.Operation
import EcLink.Proofs.Attempts
import EcLink.Proofs.BusTraffic
import EcLink.Proofs.PromptTraffic

/-!
# What a call that succeeds has taken

The master goes about its transactions, with the link and with others, and the link makes one call
after the other, each for as long as its clock lets it. Between two calls the link is somewhere in
this traffic (`Link.Amid`), and a call never gets past the end of the transaction it is in. **So a
call that delivers a frame or a payload ends with a transaction**, and what it delivers is what that
transaction was for. There are two exceptions. A link that waits for its address in the middle of a
transaction with somebody else takes any such byte for a call. And a call that runs out of time, or
of bytes to hand out, leaves the rest of its transaction to the next.
-/

namespace EcLink

theorem Transaction.Continues.keeps_offered {address : UInt8} {glimpse : Glimpse}
    {transaction next : Transaction} {actions : List Action}
    (hcontinues : Continues address glimpse transaction actions next) :
    offered next.outbox.payload = offered transaction.outbox.payload := by
  cases hcontinues with
  | turned => rfl
  | _ => rfl

theorem Transaction.answer_keeps_offered {address found : UInt8} {status : Status}
    {transaction : Transaction}
    (hopen : (transaction.answer address status found).verdict status = none) :
    offered (transaction.answer address status found).transaction.outbox.payload =
      offered transaction.outbox.payload := by
  have hdoes := answer_does address ⟨status, found⟩ transaction
  unfold Does at hdoes
  rw [hopen] at hdoes
  exact hdoes.keeps_offered

/-! ### Steps of a transaction -/

/-- The poll finds something, and if there is a byte then the master has written it. -/
def ScriptStep.Proper (step : ScriptStep) : Prop :=
  step.status.isReady = true ∧ (step.data.isSome = true → step.status.isMasterWrite = true)

theorem proper_of_mem_writtenBytes {bytes : List UInt8} {step : ScriptStep}
    (hstep : step ∈ MasterScript.writtenBytes bytes) : step.Proper := by
  rcases MasterScript.status_of_mem_writtenBytes hstep with hstatus | hstatus
  · exact ⟨by rw [hstatus]; rfl, fun _ => by rw [hstatus]; rfl⟩
  · exact ⟨by rw [hstatus]; rfl, fun _ => by rw [hstatus]; rfl⟩

theorem proper_of_mem_readingOut {count : Nat} {step : ScriptStep}
    (hstep : step ∈ readingOut count) : step.Proper := by
  rcases List.mem_append.mp hstep with hread | hstop
  · rw [List.eq_of_mem_replicate hread]
    exact ⟨rfl, fun hdata => Bool.noConfusion hdata⟩
  · rw [List.mem_singleton.mp hstop]
    exact ⟨rfl, fun hdata => Bool.noConfusion hdata⟩

theorem proper_commanded (count : Nat) :
    ∀ step ∈ (⟨.written, some readCommand⟩ :: ⟨.readRequest, none⟩ :: readingOut count :
      List ScriptStep), step.Proper := by
  rw [List.forall_mem_cons, List.forall_mem_cons]
  exact ⟨⟨rfl, fun _ => rfl⟩, ⟨rfl, fun hdata => Bool.noConfusion hdata⟩,
    fun _ => proper_of_mem_readingOut⟩

theorem proper_start (address : UInt8) : (⟨.start, some address⟩ : ScriptStep).Proper := by
  have hready : Status.start.isReady = true := rfl
  have hwrites : Status.start.isMasterWrite = true := rfl
  exact ⟨hready, fun _ => hwrites⟩

theorem proper_script (bus : BusTransaction) : ∀ step ∈ bus.script, step.Proper := by
  obtain ⟨address, kind⟩ := bus
  cases kind with
  | writes bytes =>
      change ∀ step ∈ ⟨.start, some address⟩ :: MasterScript.writtenBytes bytes, step.Proper
      rw [List.forall_mem_cons]
      exact ⟨proper_start address, fun _ => proper_of_mem_writtenBytes⟩
  | reads count =>
      rw [script_reads, List.forall_mem_cons]
      exact ⟨proper_start address, proper_commanded count⟩

theorem Midway.proper {own : UInt8} {interrupted : Prop} {bus : BusTransaction}
    {todo : List ScriptStep} {transaction : Transaction}
    (hmidway : Midway own interrupted bus todo transaction) : ∀ step ∈ todo, step.Proper := by
  have hturning : ∀ count, ∀ step ∈ (⟨.readRequest, none⟩ :: readingOut count : List ScriptStep),
      step.Proper := by
    intro count step hstep
    exact proper_commanded count step (List.mem_cons_of_mem _ hstep)
  cases hmidway with
  | before => exact proper_script bus
  | ignoring => exact fun _ => proper_of_mem_writtenBytes
  | called => exact fun _ => proper_of_mem_writtenBytes
  | hearing => exact fun _ => proper_of_mem_writtenBytes
  | commanded => exact proper_commanded _
  | turning => exact hturning _
  | reading => exact fun _ => proper_of_mem_readingOut
  | strayCommand => exact proper_commanded _
  | strayTurn => exact hturning _
  | strayRead => exact fun _ => proper_of_mem_readingOut

theorem Midway.exists_step {own : UInt8} {interrupted : Prop} {bus : BusTransaction}
    {todo : List ScriptStep} {transaction : Transaction}
    (hmidway : Midway own interrupted bus todo transaction) : ∃ step rest, todo = step :: rest := by
  have hwritten : ∀ bytes, ∃ step rest, MasterScript.writtenBytes bytes = step :: rest := by
    intro bytes
    apply List.exists_cons_of_length_pos
    rw [MasterScript.length_writtenBytes]
    omega
  have hreading : ∀ count, ∃ step rest, readingOut count = step :: rest := by
    intro count
    cases count <;> exact ⟨_, _, rfl⟩
  cases hmidway with
  | before =>
      obtain ⟨rest, hscript⟩ := bus.script_start
      exact ⟨_, rest, hscript⟩
  | ignoring => exact hwritten _
  | called => exact hwritten _
  | hearing => exact hwritten _
  | reading => exact hreading _
  | strayRead => exact hreading _
  | _ => exact ⟨_, _, rfl⟩

namespace Link

variable {κ : Type} {link after : Link ScriptedBoard κ} {own : UInt8}
  {traffic : List BusTransaction} {replies : List Reply} {polls : Nat} {outcome : Outcome}

/-! ### Between two calls -/

/-- The last call ran out of time, or of bytes to hand out. -/
def LeftOpen (replies : List Reply) : Prop :=
  replies.getLast? = some (.transacted (.failed .timeout)) ∨
    replies.getLast? = some (.transacted (.failed .noData))

/-- After calls with these replies, a link is between two transactions or in the middle of one. In
    one of its own it is only if the last call left it open. -/
inductive Amid (own : UInt8) (traffic : List BusTransaction) (replies : List Reply)
    (link : Link ScriptedBoard κ) : Prop
  | between {earlier later : List BusTransaction} (htraffic : traffic = earlier ++ later)
      (hscript : link.script = later.flatMap BusTransaction.script)
  | within {earlier later : List BusTransaction} {bus : BusTransaction} {todo : List ScriptStep}
      (htraffic : traffic = earlier ++ bus :: later)
      (hscript : link.script = todo ++ later.flatMap BusTransaction.script)
      (hmidway : Midway own True bus todo link.transaction)
      (hopen : bus.address = own → LeftOpen replies)

/-- What a call has taken that ends like this: a transaction of the link's own, all of it unless the
    call before left it open, or one with somebody else that the link has misheard. -/
structure Accounts (own : UInt8) (traffic : List BusTransaction) (replies : List Reply)
    (before after : Link ScriptedBoard κ) (outcome : Outcome) : Prop where
  received : ∀ frame, outcome = .received frame →
    ∃ earlier bus later, traffic = earlier ++ bus :: later ∧
      after.script = later.flatMap BusTransaction.script ∧
      ((bus = ⟨own, .writes frame.bytes⟩ ∧
          (before.script = bus.script ++ after.script ∨ LeftOpen replies)) ∨
        Misheard own bus frame.bytes)
  sent : outcome = .sent →
    ∃ earlier count later, traffic = earlier ++ ⟨own, .reads count⟩ :: later ∧
      after.script = later.flatMap BusTransaction.script ∧
      ((before.script = (⟨own, .reads count⟩ : BusTransaction).script ++ after.script ∧
          count = (offered before.queued).bytes.length) ∨
        (LeftOpen replies ∧ (offered before.queued).bytes.length ≤ count))

theorem Accounts.of_nothing {before : Link ScriptedBoard κ} (hframe : outcome.frame? = none)
    (hsent : outcome ≠ .sent) : Accounts own traffic replies before after outcome := by
  constructor
  · rintro frame rfl
    cases hframe
  · intro hended
    exact (hsent hended).elim

theorem amid_of_ends {earlier later : List BusTransaction} {bus : BusTransaction}
    {interrupted : Prop} {left : List ScriptStep} {transaction : Transaction}
    (htraffic : traffic = earlier ++ bus :: later)
    (hends : Ends own interrupted bus (offered link.queued) left outcome transaction)
    (htransaction : after.transaction = transaction)
    (hscript : after.script = left ++ later.flatMap BusTransaction.script)
    (hthrough : (link.script = bus.script ++ later.flatMap BusTransaction.script ∧ ¬ interrupted) ∨
      (bus.address = own → LeftOpen replies)) :
    Amid own traffic (replies ++ [.transacted outcome]) after ∧
      Accounts own traffic replies link after outcome := by
  have hover : left = [] → Amid own traffic (replies ++ [.transacted outcome]) after := by
    rintro rfl
    have hpast : traffic = (earlier ++ [bus]) ++ later := by
      rw [htraffic, List.append_assoc]
      rfl
    exact .between hpast hscript
  cases hends with
  | @leftOpen _ fault _ hmidway hreason =>
      refine ⟨.within htraffic hscript (htransaction ▸ hmidway) ?_,
        .of_nothing rfl Outcome.noConfusion⟩
      intro hours
      rw [LeftOpen, List.getLast?_concat]
      rcases hreason hours with rfl | rfl
      · exact .inl rfl
      · exact .inr rfl
  | failed => exact ⟨hover rfl, .of_nothing rfl Outcome.noConfusion⟩
  | cutShort => exact ⟨hover rfl, .of_nothing rfl Outcome.noConfusion⟩
  | received hreaches =>
      rw [List.nil_append] at hscript
      refine ⟨hover rfl, ?_, ?_⟩
      · rintro frame ⟨⟩
        refine ⟨earlier, bus, later, htraffic, hscript, ?_⟩
        rcases hreaches with hours | hmisheard
        · refine .inl ⟨hours, ?_⟩
          rw [hscript]
          rcases hthrough with ⟨hwhole, -⟩ | hopen
          · exact .inl hwhole
          · exact .inr (hopen (congrArg BusTransaction.address hours))
        · exact .inr hmisheard
      · intro hsent
        cases hsent
  | @sent count _ hread hall hexact =>
      subst hread
      rw [List.nil_append] at hscript
      refine ⟨hover rfl, ?_, ?_⟩
      · intro frame hframe
        cases hframe
      · intro _
        refine ⟨earlier, count, later, htraffic, hscript, ?_⟩
        rw [hscript]
        rcases hthrough with ⟨hwhole, hnever⟩ | hopen
        · exact .inl ⟨hwhole, hexact.resolve_left hnever⟩
        · exact .inr ⟨hopen rfl, hall⟩

variable [Console κ]

/-! ### One poll -/

/-- What a poll of a script comes to, with the byte that it finds: one that the master has written
    by then, or else, while the master reads, the last one. -/
theorem turn_finds {step : ScriptStep} {rest : List ScriptStep} (hproper : step.Proper)
    (hscript : link.script = step :: rest) (start : Instant) (byte : UInt8) :
    ∃ found middle, (∀ data, step.data = some data → found = data) ∧
      (step.status.isMasterWrite = false → found = byte) ∧
      middle.transaction =
        (link.transaction.answer link.config.address step.status found).transaction ∧
      middle.script = rest ∧ middle.config = link.config ∧
      (∀ outcome, (link.transaction.answer link.config.address step.status found).verdict
          step.status = some outcome →
        link.turn start .blocking byte = (.finished outcome, middle)) ∧
      ((link.transaction.answer link.config.address step.status found).verdict step.status = none →
        link.turn start .blocking byte = (.again found, middle) ∨
          link.turn start .blocking byte = (.finished (.failed .timeout), middle)) := by
  obtain ⟨hready, hwrites⟩ := hproper
  have hstands : Stands ⟨link.transaction, byte, (ScriptedBoard.bus link.board).data⟩
      (step :: rest) link := ⟨rfl, rfl, hscript⟩
  obtain ⟨hstatus, hfound, hpolled⟩ := poll_stands hstands
  obtain ⟨middle, hnext, htravels, hrespond⟩ :=
    respond_stands (congrArg Config.address hpolled.config) hfound start
  have hturn : link.turn start .blocking byte = link.poll.2.respond start step.status byte := by
    rw [turn_eq, hstatus, hready, if_pos rfl]
  refine ⟨_, middle, ?_, ?_, hnext.transaction, hnext.script,
    htravels.config.trans hpolled.config, ?_, ?_⟩
  · intro data hdata
    have hwritten : step.status.isMasterWrite = true := hwrites (by rw [hdata]; rfl)
    simp [Stance.heard, Stance.find, hwritten, hdata]
  · intro hreads
    simp [Stance.heard, Stance.find, hreads]
  · intro outcome hends
    change (Stance.reaction _ _ _).verdict _ = _ at hends
    rw [hturn, hrespond, hends]
  · intro hopen
    change (Stance.reaction _ _ _).verdict _ = _ at hopen
    rw [hturn, hrespond, hopen]
    cases (middle.isLate start).1 with
    | true => exact .inr rfl
    | false => exact .inl rfl

/-! ### One call -/

/-- A call ends where its transaction does, or leaves the rest of it. -/
theorem turns_end {bus : BusTransaction} {interrupted : Prop} {todo later : List ScriptStep}
    {start : Instant} {byte : UInt8}
    (hdone : link.turns start polls .blocking byte = some (outcome, after))
    (hmidway : Midway link.config.address interrupted bus todo link.transaction)
    (hscript : link.script = todo ++ later)
    (hzero : link.transaction.phase = .address → byte = 0) :
    ∃ left, Ends link.config.address interrupted bus (offered link.queued) left outcome
        after.transaction ∧
      after.script = left ++ later ∧ after.config = link.config := by
  induction polls generalizing link byte todo with
  | zero => cases hdone
  | succ polls ih =>
      obtain ⟨step, rest, rfl⟩ := hmidway.exists_step
      obtain ⟨found, middle, hdata, hsame, hnext, hrest, hconfig, hends, hgoesOn⟩ :=
        turn_finds (hmidway.proper step List.mem_cons_self) hscript start byte
      have hpasses := hmidway.poll hdata fun hwaits hreads => (hsame hreads).trans (hzero hwaits)
      rw [turns] at hdone
      unfold Passes at hpasses
      cases hverdict : (link.transaction.answer link.config.address step.status found).verdict
          step.status with
      | some ending =>
          rw [hends ending hverdict] at hdone
          cases hdone
          rw [hverdict, ← hnext] at hpasses
          exact ⟨rest, hpasses, hrest, hconfig⟩
      | none =>
          have hoffered := Transaction.answer_keeps_offered hverdict
          rw [hverdict, ← hnext] at hpasses
          obtain ⟨hmidway', hphase⟩ := hpasses
          rcases hgoesOn hverdict with hagain | hlate
          · rw [hagain] at hdone
            rw [← hconfig] at hmidway'
            obtain ⟨left, hended, hleft, hkept⟩ :=
              ih hdone hmidway' hrest fun hwaits => (hphase hwaits).elim
            rw [hconfig, queued, hnext, hoffered] at hended
            exact ⟨left, hended, hleft, hkept.trans hconfig⟩
          · rw [hlate] at hdone
            cases hdone
            exact ⟨rest, .leftOpen hmidway'.mono fun _ => .inl rfl, hrest, hconfig⟩

/-- When the script is over there is nothing to do but to run out of time. -/
theorem turns_silent {start : Instant} {byte : UInt8}
    (hdone : link.turns start polls .blocking byte = some (outcome, after))
    (hscript : link.script = []) (hsilent : link.tail.isReady = false) :
    outcome = .failed .timeout ∧ after.script = [] ∧ after.config = link.config := by
  induction polls generalizing link byte with
  | zero => cases hdone
  | succ polls ih =>
      obtain ⟨hstatus, hbus, hconfig⟩ := poll_silent hscript
      have hrest : link.poll.2.script = [] := by
        rw [Link.script, hbus]
        exact hscript
      have htail : link.poll.2.tail.isReady = false := by
        rw [Link.tail, hbus]
        exact hsilent
      rw [turns, turn_eq, hstatus, hsilent, if_neg Bool.false_ne_true, waitOn] at hdone
      cases hlate : (link.poll.2.isLate start).1 with
      | true =>
          simp only [hlate, if_true] at hdone
          cases hdone
          exact ⟨rfl, hrest, hconfig⟩
      | false =>
          simp only [hlate, Bool.false_eq_true, if_false] at hdone
          obtain ⟨hended, hleft, hkept⟩ := ih hdone hrest htail
          exact ⟨hended, hleft, hkept.trans hconfig⟩

/-! ### One call after the other -/

/-- **A call leads from one place in the traffic to another**, and accounts for what it delivers. -/
theorem Amid.transact (hamid : Amid own traffic replies link) (hown : link.config.address = own)
    (hsilent : link.tail.isReady = false)
    (hdone : link.transact polls .blocking = some (outcome, after)) :
    Amid own traffic (replies ++ [.transacted outcome]) after ∧
      Accounts own traffic replies link after outcome ∧ after.config = link.config := by
  obtain ⟨-, hstands, hsettled⟩ := settle_stands link
  have hscript : link.settle.2.script = link.script := hstands.script
  have htransaction : link.settle.2.transaction = link.transaction := hstands.transaction
  have hconfig : link.settle.2.config = link.config := hsettled.config
  have hqueued : link.settle.2.queued = link.queued := by rw [queued, htransaction, queued]
  have haddress : link.settle.2.config.address = own := by rw [hconfig, hown]
  change link.settle.2.turns link.settle.1 polls .blocking 0 = _ at hdone
  cases hamid with
  | @between earlier later htraffic hlink =>
      rw [hlink] at hscript
      cases later with
      | nil =>
          rw [← settle_tail] at hsilent
          obtain ⟨rfl, hleft, hkept⟩ := turns_silent hdone hscript hsilent
          exact ⟨.between htraffic hleft, .of_nothing rfl Outcome.noConfusion, hkept.trans hconfig⟩
      | cons bus later =>
          have hmidway : Midway link.settle.2.config.address False bus bus.script
              link.settle.2.transaction := .before bus _
          obtain ⟨left, hends, hleft, hkept⟩ := turns_end hdone hmidway hscript fun _ => rfl
          rw [hqueued, haddress] at hends
          obtain ⟨hamid, haccounts⟩ :=
            amid_of_ends htraffic hends rfl hleft (.inl ⟨hlink, not_false⟩)
          exact ⟨hamid, haccounts, hkept.trans hconfig⟩
  | within htraffic hlink hmidway hopen =>
      rw [hlink] at hscript
      rw [← haddress, ← htransaction] at hmidway
      obtain ⟨left, hends, hleft, hkept⟩ := turns_end hdone hmidway hscript fun _ => rfl
      rw [hqueued, haddress] at hends
      obtain ⟨hamid, haccounts⟩ := amid_of_ends htraffic hends rfl hleft (.inr hopen)
      exact ⟨hamid, haccounts, hkept.trans hconfig⟩

theorem performAll_amid {calls : Nat} {made : List Reply} (hamid : Amid own traffic made link)
    (hown : link.config.address = own) (hsilent : link.tail.isReady = false)
    (hdone : performAll (Link.perform polls) (List.replicate calls (.transact .blocking)) link =
      some (replies, after)) :
    Amid own traffic (made ++ replies) after ∧ after.config = link.config ∧
      after.tail = link.tail := by
  induction calls generalizing link made replies with
  | zero =>
      cases hdone
      rw [List.append_nil]
      exact ⟨hamid, rfl, rfl⟩
  | succ calls ih =>
      rw [List.replicate_succ, performAll] at hdone
      obtain ⟨⟨reply, middle⟩, hfirst, hdone⟩ := Option.bind_eq_some_iff.mp hdone
      obtain ⟨⟨more, final⟩, hlater, hend⟩ := Option.bind_eq_some_iff.mp hdone
      cases hend
      obtain ⟨⟨outcome, next⟩, htransact, hperformed⟩ := Option.bind_eq_some_iff.mp hfirst
      cases hperformed
      obtain ⟨hamid', -, hconfig⟩ := hamid.transact hown hsilent htransact
      have htail : middle.tail = link.tail := (transact_moves htransact).keep_tail
      rw [← hconfig] at hown
      rw [← htail] at hsilent
      obtain ⟨hfinal, hkept, hquiet⟩ := ih hamid' hown hsilent hlater
      rw [List.append_assoc] at hfinal
      exact ⟨hfinal, hkept.trans hconfig, hquiet.trans htail⟩

/-- **What succeeds is a transaction of one's own, and all of it.** Whatever state a link is in when
    some traffic begins, and whatever its clock does: after any number of calls, a call that
    delivers a frame ends with a write to the link of exactly this frame, and one that has a payload
    read ends with a read from the link of exactly this payload. It has taken that transaction from
    the start. The exceptions are a transaction with somebody else in which the link has misheard
    its address, and what the call before has left open. -/
theorem only_own_transactions_succeed {middle : Link ScriptedBoard κ} {calls : Nat}
    (hscript : link.script = traffic.flatMap BusTransaction.script)
    (hsilent : link.tail.isReady = false)
    (hearlier : performAll (Link.perform polls) (List.replicate calls (.transact .blocking)) link =
      some (replies, middle))
    (hdone : middle.transact polls .blocking = some (outcome, after)) :
    (∀ frame, outcome = .received frame →
      ∃ earlier bus later, traffic = earlier ++ bus :: later ∧
        after.script = later.flatMap BusTransaction.script ∧
        ((bus = ⟨link.config.address, .writes frame.bytes⟩ ∧
            (middle.script = bus.script ++ after.script ∨ LeftOpen replies)) ∨
          Misheard link.config.address bus frame.bytes)) ∧
    (outcome = .sent →
      ∃ earlier count later,
        traffic = earlier ++ ⟨link.config.address, .reads count⟩ :: later ∧
        after.script = later.flatMap BusTransaction.script ∧
        ((middle.script =
              (⟨link.config.address, .reads count⟩ : BusTransaction).script ++ after.script ∧
            count = (offered middle.queued).bytes.length) ∨
          (LeftOpen replies ∧ (offered middle.queued).bytes.length ≤ count))) := by
  have hbegin : Amid link.config.address traffic [] link :=
    .between (List.nil_append traffic).symm hscript
  obtain ⟨hamid, hconfig, htail⟩ := performAll_amid hbegin rfl hsilent hearlier
  rw [List.nil_append] at hamid
  rw [← htail] at hsilent
  obtain ⟨-, haccounts, -⟩ := hamid.transact (congrArg Config.address hconfig) hsilent hdone
  exact ⟨haccounts.received, haccounts.sent⟩

/-- A link on which nothing has happened, with this traffic to come. -/
def facing (traffic : List BusTransaction) : Link ScriptedBoard Silent :=
  .fresh (.atTime { ScriptedBus.idle .quiet 0 with
    steps := traffic.flatMap BusTransaction.script } 0) ⟨⟩ {}

def misleading : List BusTransaction := [⟨0x42, .writes [0x8a, 0x81, 0x05]⟩]

def tooLong : List BusTransaction := [⟨MasterScript.usualAddress, .reads 3⟩]

/-- A frame comes from bytes that were written to somebody else, and a payload of two bytes counts
    as read when three were. -/
theorem others_succeed :
    (∃ middle after frame,
      (facing misleading).transact 9 .blocking = some (.failed (.addressMismatch 0x42), middle) ∧
      middle.transact 9 .blocking = some (.received frame, after) ∧ frame.bytes = [0x81, 0x05] ∧
      ∀ bus ∈ misleading, bus.address ≠ (facing misleading).config.address) ∧
    ∃ middle after,
      (facing tooLong).transact 9 .blocking = some (.failed .noData, middle) ∧
      middle.transact 9 .blocking = some (.sent, after) ∧
      (offered (facing tooLong).queued).bytes.length = 2 ∧
      ∀ bus ∈ tooLong, bus.kind = .reads 3 := by
  have hmisheard : ((facing misleading).transact 9 .blocking).bind (fun first =>
      (first.2.transact 9 .blocking).map fun second =>
        (first.1, second.1.frame?.map Frame.bytes)) =
      some (.failed (.addressMismatch 0x42), some [0x81, 0x05]) := by decide
  have hoverread : ((facing tooLong).transact 9 .blocking).bind (fun first =>
      (first.2.transact 9 .blocking).map fun second => (first.1, second.1)) =
      some (.failed .noData, .sent) := by decide
  constructor
  · obtain ⟨⟨first, middle⟩, hfirst, hmisheard⟩ := Option.bind_eq_some_iff.mp hmisheard
    obtain ⟨⟨second, after⟩, hsecond, hends⟩ := Option.map_eq_some_iff.mp hmisheard
    obtain ⟨rfl, hframe⟩ := Prod.mk.inj hends
    obtain ⟨frame, hreceived, hbytes⟩ := Option.map_eq_some_iff.mp hframe
    have hdelivered : second = .received frame := by
      cases second with
      | received other =>
          cases hreceived
          rfl
      | _ => cases hreceived
    rw [hdelivered] at hsecond
    exact ⟨middle, after, frame, hfirst, hsecond, hbytes, by decide⟩
  · obtain ⟨⟨first, middle⟩, hfirst, hoverread⟩ := Option.bind_eq_some_iff.mp hoverread
    obtain ⟨⟨second, after⟩, hsecond, hends⟩ := Option.map_eq_some_iff.mp hoverread
    obtain ⟨rfl, rfl⟩ := Prod.mk.inj hends
    exact ⟨middle, after, hfirst, hsecond, by decide, by decide⟩

def mixed : List BusTransaction :=
  [⟨0x42, .writes [0x8a, 0x81]⟩, ⟨MasterScript.usualAddress, .writes lidEvent.bytes⟩]

theorem only_own_transactions_succeed_third :
    ∃ replies middle after,
      performAll (Link.perform 9) (List.replicate 2 (.transact .blocking)) (facing mixed) =
        some (replies, middle) ∧
      middle.transact 9 .blocking = some (.received lidEvent, after) ∧
      ∃ earlier bus later, mixed = earlier ++ bus :: later ∧
        after.script = later.flatMap BusTransaction.script ∧
        ((bus = ⟨(facing mixed).config.address, .writes lidEvent.bytes⟩ ∧
            (middle.script = bus.script ++ after.script ∨ LeftOpen replies)) ∨
          Misheard (facing mixed).config.address bus lidEvent.bytes) := by
  have hrun : ((performAll (Link.perform 9) (List.replicate 2 (.transact .blocking))
      (facing mixed)).bind fun done => (done.2.transact 9 .blocking).map Prod.fst) =
      some (.received lidEvent) := by decide
  obtain ⟨⟨replies, middle⟩, hearlier, hthird⟩ := Option.bind_eq_some_iff.mp hrun
  obtain ⟨⟨outcome, after⟩, hdone, rfl⟩ := Option.map_eq_some_iff.mp hthird
  exact ⟨replies, middle, after, hearlier, hdone,
    (only_own_transactions_succeed rfl rfl hearlier hdone).1 lidEvent rfl⟩

end Link

end EcLink
