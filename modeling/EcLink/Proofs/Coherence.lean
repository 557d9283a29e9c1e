import EcLink.Proofs.RequestLine
import EcLink.Proofs.TransactionStops

/-!
# A transaction is coherent wherever it stands

How much was received, how much was handed out and the phase of a transaction belong together, and
much of what is done with them goes without a check because they do. `Transaction.Coherent` says how
they do. **A transaction is coherent after every poll**, whatever the poll found and whether the
call goes on or is given up there, and after everything that its owner does to it between two calls,
in the middle of a read as well. So a header always finds room, the size that is announced is that
of the payload, and a frame is never empty or cut off at its end.
-/

namespace EcLink

theorem Inbox.fill_push {inbox : Inbox} (hroom : inbox.fill < maxFrameLength) (byte : UInt8) :
    (inbox.push byte).fill = inbox.fill + 1 := by
  rw [push, dif_pos hroom]

namespace Transaction

/-! ### Coherence -/

/-- What is true of a transaction wherever it stands. -/
structure Coherent (transaction : Transaction) : Prop where
  bounded : transaction.inbox.fill ≤ maxFrameLength
  /-- To turn to reading takes no poll of its own. -/
  rests : transaction.phase ≠ .announcing
  /-- A byte may be left from a read that was not granted. -/
  uncalled : transaction.phase = .address → transaction.inbox.fill ≤ 1
  called : transaction.phase = .header → transaction.inbox.fill = 0
  headed : transaction.phase = .direction → transaction.inbox.fill = 1
  granted : transaction.phase = .sending →
    transaction.inbox.fill = 1 ∧ transaction.inbox.firstCell = readCommand
  unqueued : transaction.outbox.payload = none → transaction.outbox.sent = 0
  queued : ∀ payload, transaction.outbox.payload = some payload →
    1 ≤ payload.bytes.length ∧ payload.bytes.length ≤ maxPayloadLength ∧
      transaction.outbox.sent ≤ payload.bytes.length
  begun : 0 < transaction.outbox.sent → transaction.phase = .sending

variable {address : UInt8} {glimpse : Glimpse} {transaction next : Transaction}
  {actions : List Action} {outcome : Outcome}

/-- Where nothing is handed out yet, only the phase and the inbox have to fit together. -/
theorem coherent_of_unsent (hunsent : transaction.outbox.sent = 0)
    (hrests : transaction.phase ≠ .announcing)
    (huncalled : transaction.phase = .address → transaction.inbox.fill ≤ 1)
    (hcalled : transaction.phase = .header → transaction.inbox.fill = 0)
    (hheaded : transaction.phase = .direction → transaction.inbox.fill = 1)
    (hgranted : transaction.phase = .sending →
      transaction.inbox.fill = 1 ∧ transaction.inbox.firstCell = readCommand) :
    transaction.Coherent where
  bounded := transaction.inbox.fill_le
  rests := hrests
  uncalled := huncalled
  called := hcalled
  headed := hheaded
  granted := hgranted
  unqueued _ := hunsent
  queued payload _ := by
    rw [hunsent]
    exact ⟨payload.length_pos, payload.length_le, Nat.zero_le _⟩
  begun hsome := by
    rw [hunsent] at hsome
    cases hsome

theorem coherent_restart (transaction : Transaction) : transaction.restart.Coherent :=
  coherent_of_unsent rfl nofun (fun _ => Nat.zero_le 1) nofun nofun nofun

theorem coherent_fresh : fresh.Coherent := coherent_restart fresh

theorem coherent_addressed (transaction : Transaction) : transaction.addressed.Coherent :=
  coherent_of_unsent rfl nofun nofun (fun _ => rfl) nofun nofun

namespace Coherent

theorem unsent (hcoherent : transaction.Coherent) (hphase : transaction.phase ≠ .sending) :
    transaction.outbox.sent = 0 := by
  by_contra hsome
  exact hphase (hcoherent.begun (Nat.pos_of_ne_zero hsome))

/-- What the owner puts into the outbox has not been handed out. -/
theorem refilled (hcoherent : transaction.Coherent) {outbox : Outbox} (hunsent : outbox.sent = 0) :
    ({ transaction with outbox } : Transaction).Coherent :=
  coherent_of_unsent hunsent hcoherent.rests hcoherent.uncalled hcoherent.called hcoherent.headed
    hcoherent.granted

/-- A header and the byte after it are stored. -/
theorem push_of_early (hcoherent : transaction.Coherent)
    (hphase : transaction.phase = .header ∨ transaction.phase = .direction) (byte : UInt8) :
    (transaction.inbox.push byte).bytes = transaction.inbox.bytes ++ [byte] := by
  apply Inbox.bytes_push
  rw [Inbox.length_bytes]
  rcases hphase with hheader | hdirection
  · rw [hcoherent.called hheader]
    decide
  · rw [hcoherent.headed hdirection]
    decide

/-! ### What a poll keeps -/

theorem continues (hcoherent : transaction.Coherent)
    (hcontinues : Continues address glimpse transaction actions next) : next.Coherent := by
  cases hcontinues with
  | waiting => exact hcoherent
  | called => exact coherent_addressed transaction
  | headed hphase =>
      have hunsent := hcoherent.unsent (by simp [hphase])
      have hone : (transaction.inbox.push glimpse.byte).fill = 1 := by
        have hempty := hcoherent.called hphase
        rw [Inbox.fill_push (by rw [hempty]; decide), hempty]
      exact coherent_of_unsent hunsent nofun nofun nofun (fun _ => hone) nofun
  | turned hphase hread hcommand =>
      exact coherent_of_unsent rfl nofun nofun nofun nofun
        fun _ => ⟨hcoherent.headed hphase, hcommand⟩
  | stored hphase =>
      have hunsent := hcoherent.unsent (by rcases hphase with h | h <;> simp [h])
      exact coherent_of_unsent hunsent nofun nofun nofun nofun nofun
  | dropped => exact hcoherent
  | announced hphase => exact (hcoherent.rests hphase).elim
  | handedOut hphase hdue =>
      -- A byte was due, so the count was inside the payload and may go up by one.
      obtain ⟨payload, hpayload, hbyte⟩ := Option.bind_eq_some_iff.mp hdue
      have hwithin := (List.getElem?_eq_some_iff.mp hbyte).1
      refine { hcoherent with unqueued := ?_, queued := ?_, begun := fun _ => hphase }
      · intro hnothing
        cases hpayload.symm.trans hnothing
      · intro other hother
        cases hpayload.symm.trans hother
        exact ⟨payload.length_pos, payload.length_le, hwithin⟩

theorem concludes (hcoherent : transaction.Coherent)
    (hconcludes : Concludes address glimpse transaction actions outcome next) : next.Coherent := by
  cases hconcludes with
  | cutShort hstop hcontinues => exact hcoherent.continues hcontinues
  | stranger => exact coherent_restart transaction
  | wrongRead hphase =>
      -- The transaction starts over, but the byte of the command stays in the inbox.
      have hunsent := hcoherent.unsent (by simp [hphase])
      exact coherent_of_unsent hunsent nofun (fun _ => Nat.le_of_eq (hcoherent.headed hphase))
        nofun nofun nofun
  | delivered hstop hphase =>
      have hunsent := hcoherent.unsent (by rcases hphase with h | h <;> simp [h])
      exact coherent_of_unsent hunsent nofun nofun nofun nofun nofun
  | sent => exact hcoherent.refilled rfl
  | earlyStop => exact hcoherent
  | exhausted => exact hcoherent

/-- **Every poll leaves a coherent transaction coherent.** -/
theorem met (hcoherent : transaction.Coherent) (address : UInt8) (glimpse : Glimpse) :
    (transaction.meet address glimpse).transaction.Coherent := by
  cases hend : (transaction.meet address glimpse).outcome with
  | none => exact hcoherent.continues (meet_continues hend)
  | some outcome => exact hcoherent.concludes (meet_concludes hend).2

end Coherent

/-! ### Turning to reading -/

/-- The reaction to a poll, where to turn to reading is to react once more to the same poll, and
    that may happen only so often. -/
def reactWithin (address : UInt8) (glimpse : Glimpse) :
    (depth : Nat) → Transaction → Option Reaction
  | 0, transaction =>
      if transaction.AsksToRead glimpse then none
      else some (transaction.react address glimpse.status glimpse.byte)
  | depth + 1, transaction =>
      if transaction.AsksToRead glimpse then do
        let (prepared, actions) := transaction.prepare
        let reaction ← reactWithin address glimpse depth { prepared with phase := .announcing }
        some { reaction with actions := actions ++ reaction.actions }
      else
        some (transaction.react address glimpse.status glimpse.byte)

/-- **A transaction reacts to a poll once more at most.** -/
theorem reactWithin_one (address : UInt8) (glimpse : Glimpse) (transaction : Transaction) :
    transaction.reactWithin address glimpse 1 =
      some (transaction.react address glimpse.status glimpse.byte) := by
  by_cases hasks : transaction.AsksToRead glimpse
  · obtain ⟨hphase, hcommand, hread⟩ := hasks
    have hturned : transaction.react address glimpse.status glimpse.byte =
        transaction.turnToReading := by
      simp only [react, hphase, hread, if_true]
    -- One that has turned announces, and is not asked again by the same poll.
    have hnot : ∀ other : Transaction,
        ¬ ({ other with phase := .announcing } : Transaction).AsksToRead glimpse := by
      rintro other ⟨hother, -⟩
      cases hother
    have hasks : transaction.AsksToRead glimpse := ⟨hphase, hcommand, hread⟩
    rw [reactWithin, if_pos hasks, hturned, turnToReading, if_pos hcommand]
    simp only [reactWithin, if_neg (hnot _)]
    rfl
  · rw [reactWithin, if_neg hasks]

/-! ### What can be relied on -/

/-- What a coherent transaction does with whatever is polled next. -/
structure Dependable (address : UInt8) (transaction : Transaction) : Prop where
  /-- A header and the byte after it find room. -/
  stores : ∀ byte, transaction.phase = .header ∨ transaction.phase = .direction →
    (transaction.inbox.push byte).bytes = transaction.inbox.bytes ++ [byte]
  /-- The one byte that is sent when a read is granted is the length of what will be handed out. -/
  announces : ∀ glimpse, transaction.AsksToRead glimpse → ∃ size,
    (transaction.meet address glimpse).transaction.outbox =
        ⟨some (offered transaction.outbox.payload), 0⟩ ∧
      (transaction.meet address glimpse).actions.filterMap Action.sentByte? = [size] ∧
      size.toNat = (offered transaction.outbox.payload).bytes.length ∧ size ≠ 0
  /-- No other byte is sent but those of the payload. -/
  sends : ∀ glimpse byte, .send byte ∈ (transaction.meet address glimpse).actions →
    transaction.AsksToRead glimpse ∨
      (transaction.phase = .sending ∧ transaction.outbox.due? = some byte)
  /-- A stop on a byte that finds room delivers a frame, with that byte as its last. -/
  delivers : ∀ glimpse, glimpse.status.ends = true →
    transaction.phase = .direction ∨
      (transaction.phase = .receiving ∧ transaction.inbox.isFull = false) →
    ∃ frame, (transaction.meet address glimpse).outcome = some (.received frame) ∧
      frame.bytes = transaction.inbox.bytes ++ [glimpse.byte]
  /-- It reacts to a poll once more only where it turns to reading, and then only once. -/
  nests : ∀ glimpse, transaction.reactWithin address glimpse 1 =
    some (transaction.react address glimpse.status glimpse.byte)

theorem announces_of_asked (address : UInt8) (hasks : transaction.AsksToRead glimpse) :
    ∃ size,
      (transaction.meet address glimpse).transaction.outbox =
          ⟨some (offered transaction.outbox.payload), 0⟩ ∧
        (transaction.meet address glimpse).actions.filterMap Action.sentByte? = [size] ∧
        size.toNat = (offered transaction.outbox.payload).bytes.length ∧ size ≠ 0 := by
  have hsize := (offered transaction.outbox.payload).toNat_sizeByte
  have hpositive := (offered transaction.outbox.payload).length_pos
  rw [meet_of_asked address hasks]
  refine ⟨(offered transaction.outbox.payload).sizeByte, rfl, sentBytes_turned _ _, hsize, ?_⟩
  intro hzero
  rw [hzero] at hsize
  exact Nat.ne_of_lt hpositive hsize

theorem Coherent.due_of_send (hcoherent : transaction.Coherent)
    (hcontinues : Continues address glimpse transaction actions next) {byte : UInt8}
    (hsend : .send byte ∈ actions) :
    transaction.AsksToRead glimpse ∨
      (transaction.phase = .sending ∧ transaction.outbox.due? = some byte) := by
  cases hcontinues with
  | turned hphase hread hcommand => exact .inl ⟨hphase, hcommand, hread⟩
  | announced hphase => exact (hcoherent.rests hphase).elim
  | handedOut hphase hdue =>
      cases List.mem_singleton.mp hsend
      exact .inr ⟨hphase, hdue⟩
  | _ => simp at hsend

theorem Coherent.sends (hcoherent : transaction.Coherent) (address : UInt8) {byte : UInt8}
    (hsend : .send byte ∈ (transaction.meet address glimpse).actions) :
    transaction.AsksToRead glimpse ∨
      (transaction.phase = .sending ∧ transaction.outbox.due? = some byte) := by
  cases hend : (transaction.meet address glimpse).outcome with
  | none => exact hcoherent.due_of_send (meet_continues hend) hsend
  | some outcome =>
      obtain ⟨-, hconcludes⟩ := meet_concludes hend
      generalize (transaction.meet address glimpse).actions = actions at hsend hconcludes
      generalize (transaction.meet address glimpse).transaction = next at hconcludes
      cases hconcludes with
      | cutShort hstop hcontinues => exact hcoherent.due_of_send hcontinues hsend
      | _ => simp at hsend

/-- A stop is neither a call nor a repeated start, so it ends the frame. -/
theorem answer_of_ends (hends : glimpse.status.ends = true)
    (hphase : transaction.phase = .direction ∨
      (transaction.phase = .receiving ∧ transaction.inbox.isFull = false)) (address : UInt8) :
    transaction.answer address glimpse.status glimpse.byte =
      (transaction.accept glimpse.byte .receiving).endOfFrame glimpse.status := by
  have hlater : glimpse.status.isStart = false := by
    rw [Bool.eq_false_iff]
    intro hstart
    rw [(Status.isStart_iff _).mp hstart] at hends
    cases hends
  have hwrites : glimpse.status.isReadRequest = false := by
    rw [Bool.eq_false_iff]
    intro hread
    rw [(Status.isReadRequest_iff _).mp hread] at hends
    cases hends
  rcases hphase with hdirection | ⟨hreceiving, hroom⟩
  · simp [answer, hlater, react, hdirection, hwrites]
  · simp [answer, hlater, react, hreceiving, hroom]

theorem Coherent.delivers (hcoherent : transaction.Coherent) (address : UInt8)
    (hends : glimpse.status.ends = true)
    (hphase : transaction.phase = .direction ∨
      (transaction.phase = .receiving ∧ transaction.inbox.isFull = false)) :
    ∃ frame, (transaction.meet address glimpse).outcome = some (.received frame) ∧
      frame.bytes = transaction.inbox.bytes ++ [glimpse.byte] := by
  obtain ⟨hready, hstop⟩ := Bool.and_eq_true_iff.mp hends
  obtain ⟨frame, hframe⟩ := transaction.inbox.frame?_push glimpse.byte
  have hstored : (transaction.inbox.push glimpse.byte).bytes =
      transaction.inbox.bytes ++ [glimpse.byte] := by
    rcases hphase with hdirection | ⟨-, hroom⟩
    · exact hcoherent.push_of_early (.inr hdirection) glimpse.byte
    · apply Inbox.bytes_push
      have hfill := transaction.inbox.fill_le
      have hnotFull : transaction.inbox.fill ≠ maxFrameLength := by
        simpa [Inbox.isFull] using hroom
      rw [Inbox.length_bytes]
      omega
  refine ⟨frame, ?_, ?_⟩
  · rw [meet, if_pos hready, answer_of_ends hends hphase, endOfFrame, if_pos hstop]
    simp only [accept, hframe, Option.map_some, Reaction.verdict]
  · rw [Frame.ofBytes?_eq_some_iff.mp hframe, hstored]

/-- **A coherent transaction can be relied on.** -/
theorem Coherent.dependable (hcoherent : transaction.Coherent) (address : UInt8) :
    transaction.Dependable address where
  stores byte hphase := hcoherent.push_of_early hphase byte
  announces _ hasks := announces_of_asked address hasks
  sends _ _ hsend := hcoherent.sends address hsend
  delivers _ hends hphase := hcoherent.delivers address hends hphase
  nests glimpse := reactWithin_one address glimpse transaction

end Transaction

/-! ### The states of a link -/

namespace Link

variable {σ κ : Type}

section Polling

variable [Board σ] [Console κ]

/-- The states of a link after each of the next polls of a call, so many of them at most. A call
    that does not end has such states too. -/
def afterPolls (start : Instant) : (polls : Nat) → Mode → UInt8 → Link σ κ → List (Link σ κ)
  | 0, _, _, _ => []
  | polls + 1, mode, byte, link =>
      match link.turn start mode byte with
      | (.finished _, after) => [after]
      | (.again heard, after) => after :: afterPolls start polls .blocking heard after

/-- The states after the first polls of a call. -/
def statesPolled (polls : Nat) (mode : Mode) (link : Link σ κ) : List (Link σ κ) :=
  let (start, link) := link.settle
  link.afterPolls start polls mode 0

/-- The last of these is what the call leaves. -/
theorem getLast?_afterPolls {start : Instant} {polls : Nat} {mode : Mode} {byte : UInt8}
    {link after : Link σ κ} {outcome : Outcome}
    (hdone : link.turns start polls mode byte = some (outcome, after)) :
    (link.afterPolls start polls mode byte).getLast? = some after := by
  induction polls generalizing mode byte link with
  | zero => cases hdone
  | succ polls ih =>
      rw [turns] at hdone
      rw [afterPolls]
      rcases hturn : link.turn start mode byte with ⟨turn, middle⟩
      rw [hturn] at hdone
      cases turn with
      | finished ending =>
          cases hdone
          rfl
      | again heard =>
          have hlast := ih hdone
          rw [List.getLast?_cons, hlast, Option.getD_some]

theorem getLast?_statesPolled {polls : Nat} {mode : Mode} {link after : Link σ κ}
    {outcome : Outcome} (hdone : link.transact polls mode = some (outcome, after)) :
    (link.statesPolled polls mode).getLast? = some after :=
  getLast?_afterPolls hdone

end Polling

variable [Board σ] [Console κ] {link : Link (Traced σ) κ}

theorem turn_coherent (hcoherent : link.transaction.Coherent) (start : Instant) (mode : Mode)
    (byte : UInt8) : (link.turn start mode byte).2.transaction.Coherent := by
  obtain ⟨glimpse, -, -, hnext, -, -⟩ := turn_meets start mode byte link
  rw [hnext]
  exact hcoherent.met link.config.address glimpse

/-- There is one of these states for each poll. -/
theorem afterPolls_logged {start : Instant} {polls : Nat} {mode : Mode} {byte : UInt8} {place : Nat}
    {reached : Link (Traced σ) κ}
    (hreached : (link.afterPolls start polls mode byte)[place]? = some reached) :
    ∃ (glimpses : List Glimpse) (actions : List Action), glimpses.length = place + 1 ∧
      Logged (glimpses.flatMap Glimpse.inputs) actions link reached := by
  induction polls generalizing mode byte link place with
  | zero => cases hreached
  | succ polls ih =>
      obtain ⟨glimpse, -, -, -, hlogged, -⟩ := turn_meets start mode byte link
      rw [afterPolls] at hreached
      rcases hturn : link.turn start mode byte with ⟨turn, middle⟩
      rw [hturn] at hlogged hreached
      cases place with
      | zero =>
          have hmiddle : middle = reached := by
            cases turn <;> exact Option.some.inj hreached
          rw [← hmiddle]
          rw [← List.flatMap_singleton Glimpse.inputs glimpse] at hlogged
          exact ⟨[glimpse], _, rfl, hlogged⟩
      | succ place =>
          cases turn with
          | finished ending => cases hreached
          | again heard =>
              obtain ⟨glimpses, actions, hlength, hlater⟩ := ih hreached
              have hall := hlogged.trans hlater
              rw [← List.flatMap_cons] at hall
              exact ⟨glimpse :: glimpses, _, congrArg Nat.succ hlength, hall⟩

theorem statesPolled_statuses {polls : Nat} {mode : Mode} {place : Nat}
    {reached : Link (Traced σ) κ}
    (hreached : (link.statesPolled polls mode)[place]? = some reached) :
    (link.statusesSince reached).length = place + 1 := by
  obtain ⟨glimpses, actions, hlength, hlogged⟩ := afterPolls_logged hreached
  have hall := (settle_logged link).trans hlogged
  rw [List.nil_append, List.nil_append] at hall
  rw [hall.statuses_eq, List.length_map, hlength]

/-- **Every state of a call is coherent.** -/
theorem afterPolls_coherent {start : Instant} {polls : Nat} {mode : Mode} {byte : UInt8}
    (hcoherent : link.transaction.Coherent) :
    ∀ reached ∈ link.afterPolls start polls mode byte, reached.transaction.Coherent := by
  induction polls generalizing mode byte link with
  | zero => exact nofun
  | succ polls ih =>
      have hturned := turn_coherent hcoherent start mode byte
      rw [afterPolls]
      rcases hturn : link.turn start mode byte with ⟨turn, middle⟩
      rw [hturn] at hturned
      intro reached hreached
      cases turn with
      | finished ending =>
          rw [List.mem_singleton.mp hreached]
          exact hturned
      | again heard =>
          rcases List.mem_cons.mp hreached with rfl | hlater
          · exact hturned
          · exact ih hturned reached hlater

theorem statesPolled_coherent (hcoherent : link.transaction.Coherent) (polls : Nat) (mode : Mode) :
    ∀ reached ∈ link.statesPolled polls mode, reached.transaction.Coherent := by
  have hsettled : link.settle.2.transaction.Coherent := hcoherent
  exact afterPolls_coherent hsettled

theorem perform_coherent {polls : Nat} {operation : LinkOperation} {after : Link (Traced σ) κ}
    {reply : Reply} (hcoherent : link.transaction.Coherent)
    (hdone : link.perform polls operation = some (reply, after)) : after.transaction.Coherent := by
  cases operation with
  | transact mode =>
      obtain ⟨⟨outcome, last⟩, htransact, hend⟩ := Option.bind_eq_some_iff.mp hdone
      cases hend
      exact statesPolled_coherent hcoherent polls mode _
        (List.mem_of_getLast? (getLast?_statesPolled htransact))
  | queue bytes =>
      cases hpayload : Payload.ofBytes? bytes with
      | none =>
          simp only [perform, queue, hpayload] at hdone
          cases hdone
          exact hcoherent
      | some payload =>
          simp only [perform, queue, hpayload] at hdone
          cases hdone
          exact hcoherent.refilled rfl
  | unload =>
      cases hdone
      exact hcoherent.refilled rfl
  | assertRequest =>
      have hafter : link.assertRequest.2 = after := congrArg Prod.snd (Option.some.inj hdone)
      rw [← hafter, assertRequest, drive_transaction]
      exact hcoherent
  | tell notice =>
      cases hdone
      exact hcoherent

theorem performAll_coherent {polls : Nat} {operations : List LinkOperation}
    {after : Link (Traced σ) κ} {replies : List Reply} (hcoherent : link.transaction.Coherent)
    (hdone : performAll (perform polls) operations link = some (replies, after)) :
    after.transaction.Coherent := by
  induction operations generalizing link replies with
  | nil =>
      cases hdone
      exact hcoherent
  | cons operation later ih =>
      obtain ⟨⟨reply, middle⟩, hfirst, hdone⟩ := Option.bind_eq_some_iff.mp hdone
      obtain ⟨⟨more, last⟩, hlater, hend⟩ := Option.bind_eq_some_iff.mp hdone
      cases hend
      exact ih (perform_coherent hcoherent hfirst) hlater

/-- **A transaction is always coherent.** After any history of a new link, and after each of the
    polls of the call that comes next, if it ends or not, the transaction is coherent, and so it can
    be relied on for whatever is polled then. There is a state for each poll of the call, and the
    last of them is what the call leaves. -/
theorem always_coherent {polls : Nat} {operations : List LinkOperation} {replies : List Reply}
    {board : Traced σ} {console : κ} {config : Config}
    (hdone : performAll (perform polls) operations (.fresh board console config) =
      some (replies, link)) :
    (∀ reached, (reached = link ∨ ∃ more mode, reached ∈ link.statesPolled more mode) →
      reached.transaction.Coherent ∧ ∀ address, reached.transaction.Dependable address) ∧
    ∀ more mode,
      (∀ place reached, (link.statesPolled more mode)[place]? = some reached →
        (link.statusesSince reached).length = place + 1) ∧
      ∀ outcome after, link.transact more mode = some (outcome, after) →
        (link.statesPolled more mode).getLast? = some after := by
  have hlink := performAll_coherent Transaction.coherent_fresh hdone
  refine ⟨?_, ?_⟩
  · intro reached hreached
    have hcoherent : reached.transaction.Coherent := by
      rcases hreached with rfl | ⟨more, mode, hpolled⟩
      · exact hlink
      · exact statesPolled_coherent hlink more mode reached hpolled
    exact ⟨hcoherent, hcoherent.dependable⟩
  · intro more mode
    exact ⟨fun _ _ => statesPolled_statuses, fun _ _ => getLast?_statesPolled⟩

/-- The controller begins to read a payload of two bytes, and falls silent after the first. -/
def brokenOff : List ScriptStep :=
  [⟨.start, some MasterScript.usualAddress⟩, ⟨.written, some readCommand⟩, ⟨.readRequest, none⟩,
    ⟨.readOut, none⟩]

/-- After two silent polls with a pause between them that is longer than its limit, the call is
    given up in the middle of the read. -/
theorem always_coherent_in_mid_read :
    ∃ replies link,
      performAll (perform 6) [.queue [0x07, 0x02], .transact .blocking]
          (.fresh (.atTime { ScriptedBus.idle .quiet 0 with steps := brokenOff } 0) Silent.mk
            { pollMicros := 700_000 } : Link ScriptedBoard Silent) = some (replies, link) ∧
      link.transaction.phase = .sending ∧ link.transaction.outbox.sent = 1 ∧
      (∀ reached, (reached = link ∨ ∃ more mode, reached ∈ link.statesPolled more mode) →
        reached.transaction.Coherent ∧ ∀ address, reached.transaction.Dependable address) ∧
      ∀ more mode,
        (∀ place reached, (link.statesPolled more mode)[place]? = some reached →
          (link.statusesSince reached).length = place + 1) ∧
        ∀ outcome after, link.transact more mode = some (outcome, after) →
          (link.statesPolled more mode).getLast? = some after := by
  have hrun : (performAll (perform 6) [.queue [0x07, 0x02], .transact .blocking]
      (.fresh (.atTime { ScriptedBus.idle .quiet 0 with steps := brokenOff } 0) Silent.mk
        { pollMicros := 700_000 } : Link ScriptedBoard Silent)).map
        (fun done => (done.2.transaction.phase, done.2.transaction.outbox.sent)) =
      some (.sending, 1) := by decide
  obtain ⟨⟨replies, link⟩, hdone, hplace⟩ := Option.map_eq_some_iff.mp hrun
  obtain ⟨hphase, hsent⟩ := Prod.mk.inj hplace
  exact ⟨replies, link, hdone, hphase, hsent, always_coherent hdone⟩

end Link

end EcLink
