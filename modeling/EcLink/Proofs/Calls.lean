import EcLink.Proofs.Reactions
import EcLink.Traced

/-!
# Calls as transactions undergo them

A board may do as it likes, but to the transaction in flight each poll is only a status and a byte.
`Undergoes` is a whole call as the transaction undergoes it, and **every call on every board is one
of these**: `Link.transact_undergoes` says so, with the polls, the bytes sampled on them, the bytes
sent and the drives of the request line as an observer of the board sees them. A fact about all
calls is then an induction over `Undergoes`, in which there is neither a board nor a clock.
-/

namespace EcLink

/-! ### Calls without a board -/

/-- A call in which a transaction meets these polls. It may be given up after any of them that does
    not end it. -/
inductive Undergoes (address : UInt8) :
    Transaction → List Glimpse → List Action → Outcome → Transaction → Prop
  | goesOn {transaction final : Transaction} {glimpse : Glimpse} {glimpses : List Glimpse}
      {actions : List Action} {outcome : Outcome}
      (hopen : (transaction.meet address glimpse).outcome = none)
      (hlater : Undergoes address (transaction.meet address glimpse).transaction glimpses actions
        outcome final) :
      Undergoes address transaction (glimpse :: glimpses)
        ((transaction.meet address glimpse).actions ++ actions) outcome final
  | ends {transaction : Transaction} {glimpse : Glimpse} {outcome : Outcome}
      (hends : (transaction.meet address glimpse).outcome = some outcome) :
      Undergoes address transaction [glimpse] (transaction.meet address glimpse).actions outcome
        (transaction.meet address glimpse).transaction
  | givenUp {transaction : Transaction} {glimpse : Glimpse} {outcome : Outcome}
      (hopen : (transaction.meet address glimpse).outcome = none)
      (hreason : outcome = .idle ∨ outcome = .failed .timeout) :
      Undergoes address transaction [glimpse] (transaction.meet address glimpse).actions outcome
        (transaction.meet address glimpse).transaction

/-! ### What an observer sees of a call -/

/-- Whether something was read from the registers. -/
def Signal.isInput (signal : Signal) : Bool := signal.isPoll || signal.isSample

/-- The level that the request line was driven to, whether that worked or not. -/
def Signal.driven? : Signal → Option Level
  | .drove level _ => some level
  | _ => none

def Action.sentByte? : Action → Option UInt8
  | .send byte => some byte
  | _ => none

def Action.driven? : Action → Option Level
  | .release => some .high
  | _ => none

namespace Glimpse

/-- Whether the master was writing on this poll. -/
def isWrite (glimpse : Glimpse) : Bool := glimpse.status.isReady && glimpse.status.isMasterWrite

/-- What an observer sees of a poll: the data register is sampled if the master writes. -/
def inputs (glimpse : Glimpse) : List Signal :=
  .polled glimpse.status :: if glimpse.isWrite then [.sampled glimpse.byte] else []

theorem polled_mem_inputs {glimpse : Glimpse} {status : Status} :
    .polled status ∈ glimpse.inputs ↔ glimpse.status = status := by
  unfold inputs
  constructor
  · intro hmem
    rcases List.mem_cons.mp hmem with hhere | hsample
    · injection hhere with hstatus
      exact hstatus.symm
    · split at hsample
      · cases List.mem_singleton.mp hsample
      · cases hsample
  · rintro rfl
    exact List.mem_cons_self

end Glimpse

/-- On a poll on which the master does not write there is only the byte before it. -/
def Carries : UInt8 → List Glimpse → Prop
  | _, [] => True
  | byte, glimpse :: later =>
      (glimpse.isWrite = false → glimpse.byte = byte) ∧ Carries glimpse.byte later

namespace Link

variable {σ κ : Type}

/-- On the way from one link to another, an observer sees these inputs, and what these actions send
    and drive. -/
structure Logged (inputs : List Signal) (actions : List Action)
    (before after : Link (Traced σ) κ) : Prop where
  config : after.config = before.config
  trace : ∃ signals, after.board.trace = before.board.trace ++ signals ∧
    signals.filter Signal.isInput = inputs ∧
    signals.filterMap Signal.sentByte? = actions.filterMap Action.sentByte? ∧
    signals.filterMap Signal.driven? = actions.filterMap Action.driven?

theorem Logged.nothing {before after : Link (Traced σ) κ} (hconfig : after.config = before.config)
    (htrace : after.board.trace = before.board.trace) : Logged [] [] before after :=
  ⟨hconfig, [], by rw [htrace, List.append_nil], rfl, rfl, rfl⟩

theorem Logged.signal {inputs : List Signal} {actions : List Action}
    {before after : Link (Traced σ) κ} {signal : Signal} (hconfig : after.config = before.config)
    (htrace : after.board.trace = before.board.trace ++ [signal])
    (hinputs : [signal].filter Signal.isInput = inputs)
    (hsent : [signal].filterMap Signal.sentByte? = actions.filterMap Action.sentByte?)
    (hdriven : [signal].filterMap Signal.driven? = actions.filterMap Action.driven?) :
    Logged inputs actions before after :=
  ⟨hconfig, [signal], htrace, hinputs, hsent, hdriven⟩

theorem Logged.trans {first second third : Link (Traced σ) κ} {earlier later : List Signal}
    {actions more : List Action} (hearlier : Logged earlier actions first second)
    (hlater : Logged later more second third) :
    Logged (earlier ++ later) (actions ++ more) first third := by
  obtain ⟨hconfig, seen, htrace, hinputs, hsent, hdriven⟩ := hearlier
  obtain ⟨hconfig', seen', htrace', hinputs', hsent', hdriven'⟩ := hlater
  refine ⟨hconfig'.trans hconfig, seen ++ seen', ?_, ?_, ?_, ?_⟩
  · rw [htrace', htrace, List.append_assoc]
  · rw [List.filter_append, hinputs, hinputs']
  · rw [List.filterMap_append, List.filterMap_append, hsent, hsent']
  · rw [List.filterMap_append, List.filterMap_append, hdriven, hdriven']

variable [Board σ]

theorem poll_logged (link : Link (Traced σ) κ) :
    Logged [.polled link.poll.1] [] link link.poll.2 :=
  .signal rfl (Traced.trace_note _ _ _) rfl rfl rfl

theorem freshByte_logged (status : Status) (byte : UInt8) (link : Link (Traced σ) κ) :
    Logged (if status.isMasterWrite then [.sampled (link.freshByte status byte).1] else []) [] link
        (link.freshByte status byte).2 ∧
      (link.freshByte status byte).2.transaction = link.transaction ∧
      (status.isMasterWrite = false → (link.freshByte status byte).1 = byte) := by
  unfold freshByte
  cases status.isMasterWrite with
  | true =>
      refine ⟨.signal rfl (Traced.trace_note _ _ _) rfl rfl rfl, rfl, ?_⟩
      intro hreads
      cases hreads
  | false => exact ⟨.nothing rfl rfl, rfl, fun _ => rfl⟩

theorem isLate_logged (start : Instant) (link : Link (Traced σ) κ) :
    Logged [] [] link (link.isLate start).2 := .nothing rfl rfl

theorem settle_logged (link : Link (Traced σ) κ) : Logged [] [] link link.settle.2 :=
  .signal rfl (Traced.trace_note _ _ _) rfl rfl rfl

theorem waitOn_logged (start : Instant) (mode : Mode) (byte : UInt8) (link : Link (Traced σ) κ) :
    Logged [] [] link (link.waitOn start mode byte).2 ∧
      (link.waitOn start mode byte).2.transaction = link.transaction ∧
      ((link.waitOn start mode byte).1 = .again byte ∨
        (link.waitOn start mode byte).1 = .finished .idle ∨
        (link.waitOn start mode byte).1 = .finished (.failed .timeout)) := by
  cases mode with
  | nonBlocking => exact ⟨.nothing rfl rfl, rfl, .inr (.inl rfl)⟩
  | blocking =>
      have hlooked := isLate_logged start link
      simp only [waitOn]
      split
      · exact ⟨hlooked, rfl, .inr (.inr rfl)⟩
      · exact ⟨hlooked.trans (.signal rfl (Traced.trace_note _ _ _) rfl rfl rfl), rfl, .inl rfl⟩

variable [Console κ]

theorem act_logged (action : Action) (link : Link (Traced σ) κ) :
    Logged [] [action] link (link.act action) ∧
      (link.act action).transaction = link.transaction := by
  cases action with
  | send byte => exact ⟨.signal rfl (Traced.trace_note _ _ _) rfl rfl rfl, rfl⟩
  | release =>
      have htrace : (Board.drive .high link.board).2.trace = link.board.trace ++
          [.drove .high (Board.drive .high link.board).1] := Traced.trace_note _ _ _
      simp only [act, drive]
      split
      · exact ⟨.signal rfl htrace rfl rfl rfl, rfl⟩
      · exact ⟨.signal rfl htrace rfl rfl rfl, rfl⟩
  | drop => exact ⟨⟨rfl, [], (List.append_nil _).symm, rfl, rfl, rfl⟩, rfl⟩
  | tell notice => exact ⟨⟨rfl, [], (List.append_nil _).symm, rfl, rfl, rfl⟩, rfl⟩

theorem foldl_act_logged (actions : List Action) (link : Link (Traced σ) κ) :
    Logged [] actions link (actions.foldl act link) ∧
      (actions.foldl act link).transaction = link.transaction := by
  induction actions generalizing link with
  | nil => exact ⟨.nothing rfl rfl, rfl⟩
  | cons action actions ih =>
      obtain ⟨hfirst, hsame⟩ := act_logged action link
      obtain ⟨hlater, hsame'⟩ := ih (link.act action)
      exact ⟨hfirst.trans hlater, hsame'.trans hsame⟩

theorem answered_logged (status : Status) (byte : UInt8) (link : Link (Traced σ) κ) :
    Logged [] (link.transaction.answer link.config.address status byte).actions link
        (link.answered status byte) ∧
      (link.answered status byte).transaction =
        (link.transaction.answer link.config.address status byte).transaction := by
  obtain ⟨hactions, hkept⟩ :=
    foldl_act_logged (link.transaction.answer link.config.address status byte).actions
      { link with transaction :=
        (link.transaction.answer link.config.address status byte).transaction }
  exact ⟨⟨hactions.config, hactions.trace⟩, hkept⟩

/-! ### Every call is one of these -/

/-- What a poll that a transaction met can lead to: the end that the transaction comes to, or, if it
    comes to none, another poll with this byte or giving up. -/
def Allows (end? : Option Outcome) (heard : UInt8) : Turn → Prop
  | .finished outcome => end? = some outcome ∨
      (end? = none ∧ (outcome = .idle ∨ outcome = .failed .timeout))
  | .again byte => end? = none ∧ byte = heard

theorem respond_meets (start : Instant) (status : Status) (byte : UInt8)
    (link : Link (Traced σ) κ) (hready : status.isReady = true) :
    ∃ heard,
      (status.isMasterWrite = false → heard = byte) ∧
      (link.respond start status byte).2.transaction =
        (link.transaction.meet link.config.address ⟨status, heard⟩).transaction ∧
      Logged (if status.isMasterWrite then [.sampled heard] else [])
        (link.transaction.meet link.config.address ⟨status, heard⟩).actions link
        (link.respond start status byte).2 ∧
      Allows (link.transaction.meet link.config.address ⟨status, heard⟩).outcome heard
        (link.respond start status byte).1 := by
  obtain ⟨hsampled, hsame, hkept⟩ := freshByte_logged status byte link
  obtain ⟨hanswered, hfinal⟩ := answered_logged status (link.freshByte status byte).1
    (link.freshByte status byte).2
  rw [hsame, hsampled.config] at hanswered hfinal
  refine ⟨(link.freshByte status byte).1, hkept, ?_⟩
  have hall := hsampled.trans hanswered
  rw [List.append_nil, List.nil_append] at hall
  rw [respond_eq]
  simp only [Transaction.meet, hready, if_true, hsame, hsampled.config]
  cases ((link.transaction.answer link.config.address status
      (link.freshByte status byte).1).verdict status) with
  | some outcome => exact ⟨hfinal, hall, .inl rfl⟩
  | none =>
      have hlooked := hall.trans (isLate_logged start _)
      simp only [List.append_nil] at hlooked
      refine ⟨hfinal, hlooked, ?_⟩
      dsimp only
      split
      · exact .inr ⟨rfl, .inr rfl⟩
      · exact ⟨rfl, rfl⟩

theorem turn_meets (start : Instant) (mode : Mode) (byte : UInt8) (link : Link (Traced σ) κ) :
    ∃ glimpse : Glimpse,
      glimpse.status = link.poll.1 ∧ (glimpse.isWrite = false → glimpse.byte = byte) ∧
      (link.turn start mode byte).2.transaction =
        (link.transaction.meet link.config.address glimpse).transaction ∧
      Logged glimpse.inputs (link.transaction.meet link.config.address glimpse).actions link
        (link.turn start mode byte).2 ∧
      Allows (link.transaction.meet link.config.address glimpse).outcome glimpse.byte
        (link.turn start mode byte).1 := by
  have hpolled := poll_logged link
  have hturn : link.turn start mode byte =
      if link.poll.1.isReady then link.poll.2.respond start link.poll.1 byte
      else link.poll.2.waitOn start mode byte := rfl
  rw [hturn]
  by_cases hready : link.poll.1.isReady = true
  · rw [if_pos hready]
    obtain ⟨heard, hkept, hfinal, hlogged, hallows⟩ :=
      respond_meets start link.poll.1 byte link.poll.2 hready
    have hwrite : (⟨link.poll.1, heard⟩ : Glimpse).isWrite = link.poll.1.isMasterWrite := by
      rw [Glimpse.isWrite, hready, Bool.true_and]
    refine ⟨⟨link.poll.1, heard⟩, rfl, ?_, hfinal, ?_, hallows⟩
    · rw [hwrite]
      exact hkept
    · rw [Glimpse.inputs, hwrite]
      exact hpolled.trans hlogged
  · rw [if_neg hready]
    obtain ⟨hlogged, hsame, hallows⟩ := waitOn_logged start mode byte link.poll.2
    have hmeet : link.transaction.meet link.config.address ⟨link.poll.1, byte⟩ =
        link.transaction.proceed :=
      Transaction.meet_of_idle link.config.address link.transaction (Bool.eq_false_iff.mpr hready)
    have hinputs : (⟨link.poll.1, byte⟩ : Glimpse).inputs = [.polled link.poll.1] := by
      simp [Glimpse.inputs, Glimpse.isWrite, hready]
    refine ⟨⟨link.poll.1, byte⟩, rfl, fun _ => rfl, ?_⟩
    rw [hmeet, hinputs]
    refine ⟨hsame, hpolled.trans hlogged, ?_⟩
    rcases hallows with hagain | hidle | hlate
    · rw [hagain]
      exact ⟨rfl, rfl⟩
    · rw [hidle]
      exact .inr ⟨rfl, .inl rfl⟩
    · rw [hlate]
      exact .inr ⟨rfl, .inr rfl⟩

theorem turns_undergoes {start : Instant} {polls : Nat} {mode : Mode} {byte : UInt8}
    {link after : Link (Traced σ) κ} {outcome : Outcome}
    (hdone : link.turns start polls mode byte = some (outcome, after)) :
    ∃ glimpses actions,
      Undergoes link.config.address link.transaction glimpses actions outcome after.transaction ∧
      Logged (glimpses.flatMap Glimpse.inputs) actions link after ∧ Carries byte glimpses := by
  induction polls generalizing mode byte link with
  | zero => cases hdone
  | succ polls ih =>
      obtain ⟨glimpse, -, hkept, hnext, hlogged, hallows⟩ := turn_meets start mode byte link
      rw [turns] at hdone
      rcases hturn : link.turn start mode byte with ⟨turn, middle⟩
      rw [hturn] at hdone hnext hlogged hallows
      cases turn with
      | finished ending =>
          cases hdone
          refine ⟨[glimpse], _, ?_, by simpa using hlogged, hkept, trivial⟩
          rw [hnext]
          rcases hallows with hends | ⟨hopen, hreason⟩
          · exact .ends hends
          · exact .givenUp hopen hreason
      | again heard =>
          obtain ⟨hopen, rfl⟩ := hallows
          obtain ⟨glimpses, actions, hlater, hmore, hcarries⟩ := ih hdone
          rw [hlogged.config, hnext] at hlater
          refine ⟨glimpse :: glimpses, _, .goesOn hopen hlater, ?_, hkept, hcarries⟩
          rw [List.flatMap_cons]
          exact hlogged.trans hmore

/-- **Whatever a board does, a call is what some polls make of the transaction**, and the board's
    observer sees these polls, samples and what the transaction sends and drives. -/
theorem transact_undergoes {polls : Nat} {mode : Mode} {link after : Link (Traced σ) κ}
    {outcome : Outcome} (hdone : link.transact polls mode = some (outcome, after)) :
    ∃ glimpses actions,
      Undergoes link.config.address link.transaction glimpses actions outcome after.transaction ∧
      Logged (glimpses.flatMap Glimpse.inputs) actions link after ∧ Carries 0 glimpses := by
  obtain ⟨glimpses, actions, hundergoes, hlogged, hcarries⟩ := turns_undergoes hdone
  exact ⟨glimpses, actions, hundergoes, (settle_logged link).trans hlogged, hcarries⟩

end Link

end EcLink
