import EcLink.Proofs.BoardShift
import EcLink.Proofs.RequestLine
import EcLink.Proofs.TransactionStops

/-!
# What earlier transactions leave behind

The receive buffer is never cleared. What earlier transactions have left in it, the phase that one
of them was given up in, and how much of the payload it had handed out are still there when the
master calls again. **From that call on none of it makes a difference**: no cell is read that was
not filled since, and the payload starts from its front. So two links that differ in nothing but
their past do the same in a call that begins with one of the master's, and in all that follows.
-/

namespace EcLink

/-! ### Cells that were not filled -/

namespace Inbox

variable {first second : Inbox}

theorem push_of_full {inbox : Inbox} (hfull : ¬ inbox.bytes.length < maxFrameLength)
    (byte : UInt8) : inbox.push byte = inbox := by
  rw [length_bytes] at hfull
  exact dif_neg hfull

theorem bytes_push_ne_nil (inbox : Inbox) (byte : UInt8) : (inbox.push byte).bytes ≠ [] := by
  intro hempty
  by_cases hroom : inbox.bytes.length < maxFrameLength
  · rw [bytes_push hroom] at hempty
    simp at hempty
  · rw [push_of_full hroom] at hempty
    rw [hempty] at hroom
    exact hroom (by decide)

theorem bytes_push_congr (hsame : second.bytes = first.bytes) (byte : UInt8) :
    (second.push byte).bytes = (first.push byte).bytes := by
  by_cases hroom : first.bytes.length < maxFrameLength
  · rw [bytes_push hroom, bytes_push (by rwa [hsame]), hsame]
  · rw [push_of_full hroom, push_of_full (by rwa [hsame]), hsame]

theorem isFull_congr (hsame : second.bytes = first.bytes) : second.isFull = first.isFull := by
  rw [Bool.eq_iff_iff, isFull_iff, isFull_iff, hsame]

theorem head?_bytes (inbox : Inbox) (hfilled : inbox.bytes ≠ []) :
    inbox.bytes.head? = some inbox.firstCell := by
  have hpositive : inbox.fill ≠ 0 := by
    intro hempty
    exact hfilled (List.length_eq_zero_iff.mp (by rw [length_bytes, hempty]))
  have hcells : inbox.cells.toList[0]? = some inbox.firstCell := by
    rw [Vector.getElem?_toList]
    exact Vector.getElem?_eq_getElem (by decide)
  rw [bytes, List.head?_take, if_neg hpositive, List.head?_eq_getElem?, hcells]

theorem firstCell_congr (hsame : second.bytes = first.bytes) (hfilled : first.bytes ≠ []) :
    second.firstCell = first.firstCell := by
  have hhead := congrArg List.head? hsame
  rw [head?_bytes first hfilled, head?_bytes second (by rwa [hsame])] at hhead
  exact Option.some.inj hhead

end Inbox

namespace Transaction

/-- The same but for the cells of the inbox that are not filled. While the direction is awaited, the
    first one is. -/
structure Alike (first second : Transaction) : Prop where
  phase : second.phase = first.phase
  received : second.inbox.bytes = first.inbox.bytes
  outbox : second.outbox = first.outbox
  headed : first.phase = .direction → first.inbox.bytes ≠ []

variable {first second : Transaction}

theorem Alike.accept (halike : Alike first second) (byte : UInt8) (next : Phase) :
    Alike (first.accept byte next) (second.accept byte next) where
  phase := rfl
  received := Inbox.bytes_push_congr halike.received byte
  outbox := halike.outbox
  headed _ := Inbox.bytes_push_ne_nil first.inbox byte

theorem Alike.endOfFrame (halike : Alike first second) (hphase : first.phase = .receiving)
    (status : Status) :
    Reaction.Like Alike (first.endOfFrame status) (second.endOfFrame status) := by
  unfold Transaction.endOfFrame
  split
  · refine ⟨⟨halike.phase, rfl, halike.outbox, ?_⟩, rfl, ?_⟩
    · intro hother
      rw [hphase] at hother
      cases hother
    · rw [Inbox.frame?, Inbox.frame?, halike.received]
  · exact ⟨halike, rfl, rfl⟩

theorem Alike.turnToReading (halike : Alike first second) (hphase : first.phase = .direction) :
    Reaction.Like Alike first.turnToReading second.turnToReading := by
  have hcell := Inbox.firstCell_congr halike.received (halike.headed hphase)
  by_cases hcommand : first.inbox.firstCell = readCommand
  · rw [turnToReading_eq hcommand, turnToReading_eq (hcell.trans hcommand), halike.outbox]
    refine ⟨⟨rfl, halike.received, rfl, ?_⟩, rfl, rfl⟩
    intro hother
    cases hother
  · rw [Transaction.turnToReading, if_neg hcommand, Transaction.turnToReading,
      if_neg (by rwa [hcell])]
    refine ⟨⟨rfl, halike.received, halike.outbox, ?_⟩, rfl, rfl⟩
    intro hother
    cases hother

theorem Alike.handOut (halike : Alike first second) (status : Status) :
    Reaction.Like Alike (first.handOut status) (second.handOut status) := by
  unfold Transaction.handOut
  rw [halike.outbox]
  split
  · exact ⟨{ halike with outbox := rfl }, rfl, rfl⟩
  · exact ⟨{ halike with outbox := rfl }, rfl, rfl⟩
  · exact ⟨halike, rfl, rfl⟩
  · exact ⟨halike, rfl, rfl⟩

/-- **When the master calls, only the payload is left of the past.** -/
theorem react_restart_alike (hqueued : second.outbox.payload = first.outbox.payload)
    (address : UInt8) (status : Status) (byte : UInt8) :
    Reaction.Like Alike (first.restart.react address status byte)
      (second.restart.react address status byte) := by
  have hrewound : second.outbox.rewind = first.outbox.rewind := by
    unfold Outbox.rewind
    rw [hqueued]
  simp only [react, restart]
  split
  · refine ⟨⟨rfl, rfl, congrArg Outbox.rewind hrewound, ?_⟩, rfl, rfl⟩
    intro hother
    cases hother
  · refine ⟨⟨rfl, rfl, congrArg Outbox.rewind hrewound, ?_⟩, rfl, rfl⟩
    intro hother
    cases hother

theorem Alike.react (halike : Alike first second) (address : UInt8) (status : Status)
    (byte : UInt8) :
    Reaction.Like Alike (first.react address status byte) (second.react address status byte) := by
  have hsecond := halike.phase
  cases hphase : first.phase with
  | address =>
      rw [hphase] at hsecond
      rw [react_of_address hphase, react_of_address hsecond]
      exact react_restart_alike (congrArg Outbox.payload halike.outbox) address status byte
  | header =>
      simp only [Transaction.react, hsecond, hphase]
      exact ⟨halike.accept byte .direction, rfl, rfl⟩
  | direction =>
      simp only [Transaction.react, hsecond, hphase]
      split
      · exact halike.turnToReading hphase
      · exact (halike.accept byte .receiving).endOfFrame rfl status
  | receiving =>
      simp only [Transaction.react, hsecond, hphase, Inbox.isFull_congr halike.received]
      split
      · exact ⟨halike, rfl, rfl⟩
      · exact (halike.accept byte .receiving).endOfFrame rfl status
  | announcing =>
      simp only [Transaction.react, hsecond, hphase, announce, halike.outbox]
      refine ⟨⟨rfl, halike.received, rfl, ?_⟩, rfl, rfl⟩
      intro hother
      cases hother
  | sending =>
      simp only [Transaction.react, hsecond, hphase]
      exact halike.handOut status

theorem respected_alike : Respected Alike where
  answer halike address status byte := by
    unfold answer
    split
    · exact react_restart_alike (congrArg Outbox.payload halike.outbox) address status byte
    · exact halike.react address status byte
  refilled halike _ := { halike with outbox := rfl }

end Transaction

/-! ### The read command -/

/-- The master asks to read, and all that was heard since it called is the command to. -/
def isReadAsked (passed : List Glimpse) (glimpse : Glimpse) : Bool :=
  glimpse.status.isReadRequest && heardOn (sinceCall passed) == [readCommand]

/-- How often it does, on some polls that come after others. -/
def readsAsked (passed : List Glimpse) : List Glimpse → Nat
  | [] => 0
  | glimpse :: later =>
      (if isReadAsked passed glimpse then 1 else 0) + readsAsked (passed ++ [glimpse]) later

theorem isReadAsked_iff {passed : List Glimpse} {glimpse : Glimpse} :
    isReadAsked passed glimpse = true ↔
      glimpse.status.isReadRequest = true ∧ heardOn (sinceCall passed) = [readCommand] := by
  rw [isReadAsked, Bool.and_eq_true, beq_iff_eq]

theorem Glimpse.isReady_of_isReadRequest {glimpse : Glimpse}
    (hread : glimpse.status.isReadRequest = true) :
    glimpse.isReady = true ∧ glimpse.isCall = false := by
  rw [isReady, isCall, (Status.isReadRequest_iff _).mp hread]
  exact ⟨rfl, rfl⟩

namespace Transaction

variable {address : UInt8} {glimpse : Glimpse} {transaction : Transaction}
  {passed later : List Glimpse} {bytes : List UInt8}

theorem Hearing.firstCell_eq {heard : UInt8} (hhearing : Hearing [heard] transaction) :
    transaction.inbox.firstCell = heard := by
  have hinbox : transaction.inbox.bytes = [heard] := hhearing.inbox
  have hfilled : transaction.inbox.bytes ≠ [] := by simp [hinbox]
  have hhead := Inbox.head?_bytes transaction.inbox hfilled
  rw [hinbox] at hhead
  exact (Option.some.inj hhead).symm

/-- **Whoever has been called grants a read for the command that was heard since**, and not for one
    that the first cell still holds. -/
theorem Collects.asksToRead_iff (hcollects : Collects bytes transaction) :
    transaction.AsksToRead glimpse ↔
      glimpse.status.isReadRequest = true ∧ bytes = [readCommand] := by
  constructor
  · rintro ⟨hphase, hcommand, hread⟩
    have hhearing := hcollects.hearing_of_phase (.inl hphase)
    obtain ⟨heard, rfl⟩ := List.length_eq_one_iff.mp (hhearing.length_of_direction hphase)
    rw [hhearing.firstCell_eq] at hcommand
    rw [hcommand]
    exact ⟨hread, rfl⟩
  · rintro ⟨hread, rfl⟩
    cases hcollects with
    | called hphase hempty hnothing => cases hnothing
    | hearing hhearing => exact ⟨hhearing.phase, hhearing.firstCell_eq, hread⟩
    | reading hphase hmany => simp at hmany

/-- A poll on which nothing is due, or on which the master calls, lets go of nothing. -/
theorem meet_driven_of_begins (address : UInt8) (hbegins : Begins (glimpse :: later)) :
    (transaction.meet address glimpse).actions.filterMap Action.driven? = [] := by
  cases hready : glimpse.isReady with
  | false =>
      rw [meet_of_idle address transaction hready]
      rfl
  | true =>
      have hstart : glimpse.status.isStart = true := isCall_of_begins hready hbegins
      have hanswer : transaction.answer address glimpse.status glimpse.byte =
          transaction.restart.react address glimpse.status glimpse.byte := by
        rw [answer, if_pos hstart]
      have hpolled : glimpse.status.isReady = true := hready
      rw [meet, if_pos hpolled, hanswer]
      simp only [react, restart]
      split
      · rfl
      · rfl

theorem driven_of_unreleased {actions : List Action} (hkept : .release ∉ actions) :
    actions.filterMap Action.driven? = [] := by
  rw [List.filterMap_eq_nil_iff]
  intro action hmem
  cases action with
  | release => exact (hkept hmem).elim
  | _ => rfl

theorem meet_driven (address : UInt8) (glimpse : Glimpse)
    (hrests : transaction.phase ≠ .announcing) :
    (transaction.meet address glimpse).actions.filterMap Action.driven? =
      if transaction.AsksToRead glimpse then [.high] else [] := by
  split
  · rename_i hasks
    rw [actions_of_asked address hasks]
    unfold substitution
    split
    · rfl
    · rfl
  · rename_i hasks
    rw [← release_mem_meet_iff address glimpse hrests] at hasks
    exact driven_of_unreleased hasks

/-- **A read is granted on the polls on which the master asks for one**, from its first call on. -/
theorem meet_driven_of_collecting (address : UInt8)
    (hbefore : Collects (heardOn (sinceCall passed)) transaction ∨ Begins (glimpse :: later)) :
    (transaction.meet address glimpse).actions.filterMap Action.driven? =
      if isReadAsked passed glimpse then [.high] else [] := by
  rcases hbefore with hcollects | hbegins
  · rw [meet_driven address glimpse hcollects.phase_ne.2]
    exact if_congr (hcollects.asksToRead_iff.trans isReadAsked_iff.symm) rfl rfl
  · rw [meet_driven_of_begins address hbegins, if_neg]
    intro hasked
    obtain ⟨hready, hlater⟩ := Glimpse.isReady_of_isReadRequest (isReadAsked_iff.mp hasked).1
    rw [isCall_of_begins hready hbegins] at hlater
    cases hlater

end Transaction

/-- In a call of the link that begins with one of the master, the line is let go as often as the
    master asks to read. -/
theorem Undergoes.driven_eq {address : UInt8} {transaction final : Transaction}
    {glimpses passed : List Glimpse} {actions : List Action} {outcome : Outcome}
    (hundergoes : Undergoes address transaction glimpses actions outcome final)
    (hbefore : transaction.Collects (heardOn (sinceCall passed)) ∨ Begins glimpses) :
    actions.filterMap Action.driven? = List.replicate (readsAsked passed glimpses) .high := by
  have honce : ∀ asked : Bool, (if asked then [Level.high] else []) =
      List.replicate (if asked then 1 else 0) .high := by decide
  -- The induction is on the polls to come, with those gone by added up in `passed`.
  induction hundergoes generalizing passed with
  | @goesOn transaction final glimpse glimpses actions outcome hopen hlater ih =>
      rw [List.filterMap_append, Transaction.meet_driven_of_collecting address hbefore,
        ih (Transaction.collects_or_begins hopen hbefore), honce, ← List.replicate_add]
      rfl
  | ends hends =>
      rw [Transaction.meet_driven_of_collecting address hbefore, honce]
      rfl
  | givenUp hopen hreason =>
      rw [Transaction.meet_driven_of_collecting address hbefore, honce]
      rfl

/-! ### Two links with different pasts -/

/-- The same payload is queued. The phase, the inbox and how much was handed out may differ. -/
def Transaction.SameQueue (first second : Transaction) : Prop :=
  second.outbox.payload = first.outbox.payload

namespace Link

variable {σ κ : Type}

/-- The same, but for their transactions, and these are related. -/
structure Same (R : Transaction → Transaction → Prop) (first second : Link σ κ) : Prop where
  board : second.board = first.board
  console : second.console = first.console
  config : second.config = first.config
  diagnostics : second.diagnostics = first.diagnostics
  transaction : R first.transaction second.transaction

variable {R : Transaction → Transaction → Prop} {first second : Link σ κ}

theorem Same.like (hsame : Same R first second) : Like (.shifted id κ) R first second where
  board := hsame.board
  console := hsame.console.symm
  config := hsame.config
  transaction := hsame.transaction
  dropped := congrArg Diagnostics.dropped hsame.diagnostics
  signalFailures := congrArg Diagnostics.signalFailures hsame.diagnostics
  lastStatus := by
    rw [hsame.diagnostics]
    exact lastStatus_like (fun _ => rfl) first.diagnostics.lastStatus

theorem same_of_like (first second : Link σ κ) (hlike : Like (.shifted id κ) R first second) :
    Same R first second :=
  ⟨hlike.board, hlike.console.symm, hlike.config, hlike.diagnostics_eq rfl, hlike.transaction⟩

variable [Board σ]

theorem settle_statuses {glimpses : List Glimpse} {actions : List Action}
    {link after : Link (Traced σ) κ}
    (hlogged : Logged (glimpses.flatMap Glimpse.inputs) actions link.settle.2 after) :
    link.settle.2.statusesSince after = link.statusesSince after := by
  have hall := (settle_logged link).trans hlogged
  rw [hlogged.statuses_eq]
  exact hall.statuses_eq.symm

variable [Console κ]

/-- The polls of a call begin with one, and go on with those after it. -/
theorem turns_statuses {start : Instant} {polls : Nat} {mode : Mode} {byte : UInt8}
    {link after : Link (Traced σ) κ} {outcome : Outcome}
    (hdone : link.turns start (polls + 1) mode byte = some (outcome, after)) :
    link.statusesSince after =
      link.poll.1 :: match link.turn start mode byte with
        | (.finished _, _) => []
        | (.again _, middle) => middle.statusesSince after := by
  obtain ⟨glimpse, hstatus, -, -, hlogged, -⟩ := turn_meets start mode byte link
  rw [turns] at hdone
  rcases hturn : link.turn start mode byte with ⟨turn, middle⟩
  rw [hturn] at hdone hlogged
  cases turn with
  | finished ending =>
      cases hdone
      rw [← List.flatMap_singleton Glimpse.inputs glimpse] at hlogged
      rw [hlogged.statuses_eq, ← hstatus]
      rfl
  | again heard =>
      obtain ⟨glimpses, actions, -, hmore, -⟩ := turns_undergoes hdone
      have hall := hlogged.trans hmore
      rw [← List.flatMap_cons] at hall
      rw [hall.statuses_eq, List.map_cons, hstatus]
      exact congrArg _ hmore.statuses_eq.symm

theorem find?_statuses_of_begins {glimpses : List Glimpse} (hbegins : Begins glimpses) :
    (glimpses.map Glimpse.status).find? Status.isReady = some .start := by
  rw [List.find?_map]
  obtain ⟨glimpse, hfound, hcall⟩ := Option.map_eq_some_iff.mp hbegins
  have hsame : glimpses.find? (Status.isReady ∘ Glimpse.status) = some glimpse := hfound
  rw [hsame, Option.map_some, (Status.isStart_iff _).mp hcall]

/-- **Up to the first call there is nothing to tell the two apart by, and after it nothing is left
    to.** -/
theorem turns_alike {start : Instant} {polls : Nat} {mode : Mode} {byte : UInt8}
    {first second after : Link (Traced σ) κ} {outcome : Outcome}
    (hlike : Like (.shifted id κ) Transaction.SameQueue first second)
    (hdone : first.turns start polls mode byte = some (outcome, after))
    (hbegins : (first.statusesSince after).find? Status.isReady = some .start) (budget : Nat) :
    Option.Rel (InStep (Like (.shifted id κ) Transaction.Alike))
      (first.turns start budget mode byte) (second.turns start budget mode byte) := by
  have hlasts := (clockShift_id (Traced σ)).lasts (κ := κ)
  induction polls generalizing mode byte first second budget with
  | zero => cases hdone
  | succ polls ih =>
      rw [turns_statuses hdone] at hbegins
      rw [turns] at hdone
      cases budget with
      | zero => exact .none
      | succ budget =>
          obtain ⟨hword, hpolled⟩ := poll_like hlasts hlike
          have hsecond : second.poll.1 = first.poll.1 := hword.symm
          by_cases hready : first.poll.1.isReady = true
          · have hstart : first.poll.1 = .start := by simpa [hready] using hbegins
            have hturn : InStep (Like (.shifted id κ) Transaction.Alike)
                (first.turn start mode byte) (second.turn (start.later 0) mode byte) := by
              simp only [turn, hsecond, hready, if_true]
              apply respond_like hlasts start _ byte hpolled
              intro address heard
              rw [hstart]
              exact Transaction.react_restart_alike hpolled.transaction address .start heard
            rw [Instant.later_zero] at hturn
            apply turns_of_turn hturn
            · intro ending one two _ hafter
              exact hafter
            · intro heard one two _ hafter
              have hrest := turns_like hlasts Transaction.respected_alike start budget .blocking
                heard hafter
              rwa [Instant.later_zero] at hrest
          · have hturn : InStep (Like (.shifted id κ) Transaction.SameQueue)
                (first.turn start mode byte) (second.turn (start.later 0) mode byte) := by
              simp only [turn, hsecond, hready]
              exact waitOn_like hlasts start mode byte hpolled
            rw [Instant.later_zero] at hturn
            rw [List.find?_cons_of_neg hready] at hbegins
            apply turns_of_turn hturn
            · intro ending one two hfirst _
              rw [hfirst] at hbegins
              cases hbegins
            · intro heard one two hfirst hafter
              rw [hfirst] at hbegins hdone
              exact ih hafter hdone hbegins budget

theorem transact_alike {polls : Nat} {mode : Mode} {first second after : Link (Traced σ) κ}
    {outcome : Outcome} (hsame : Same Transaction.SameQueue first second)
    (hdone : first.transact polls mode = some (outcome, after))
    (hbegins : Begins (first.glimpsesSince after)) (budget : Nat) :
    Option.Rel (InStep (Same Transaction.Alike)) (first.transact budget mode)
      (second.transact budget mode) := by
  have hlasts := (clockShift_id (Traced σ)).lasts (κ := κ)
  obtain ⟨hstart, hsettled⟩ := settle_like hlasts hsame.like
  rw [Instant.later_zero] at hstart
  have hturned : first.settle.2.turns first.settle.1 polls mode 0 = some (outcome, after) := hdone
  obtain ⟨actions, -, hlogged⟩ := transact_logged hdone
  obtain ⟨glimpses, moved, -, hpolled, -⟩ := turns_undergoes hturned
  have hcalled : (first.settle.2.statusesSince after).find? Status.isReady = some .start := by
    rw [settle_statuses hpolled, hlogged.statuses_eq]
    exact find?_statuses_of_begins hbegins
  have hturns := turns_alike hsettled hturned hcalled budget
  apply step_mono _ same_of_like
  simp only [transact]
  rw [hstart]
  exact hturns

/-- Cells that are not filled make no difference to a history. -/
theorem performAll_alike {first second : Link (Traced σ) κ}
    (hsame : Same Transaction.Alike first second) (budget : Nat)
    (operations : List LinkOperation) :
    Option.Rel (InStep (Same Transaction.Alike)) (performAll (perform budget) operations first)
      (performAll (perform budget) operations second) := by
  have hlasts := (clockShift_id (Traced σ)).lasts (κ := κ)
  apply step_mono _ same_of_like
  apply performAll_like _ operations hsame.like
  intro operation one two hlike
  exact perform_like hlasts Transaction.respected_alike budget operation hlike

/-- **When the master calls, the past is forgotten.** Take two links that are the same, with the
    same payload queued, but are in any phases, with anything in their inboxes and any part of the
    payload handed out. Where a call of the one begins with a call of the master, the other does the
    same on its board, with the same outcome, and what it leaves is the same but for cells of the
    inbox that are not filled. Whatever is then asked of them, they do not differ again. A frame is
    what was heard since the last call of the master, and the line is let go, as it is where a read
    is granted, as often as the master has asked to read just after its call and the read
    command. -/
theorem past_forgotten_when_called {polls : Nat} {mode : Mode}
    {first second after : Link (Traced σ) κ} {outcome : Outcome}
    (hsame : Same Transaction.SameQueue first second)
    (hdone : first.transact polls mode = some (outcome, after))
    (hbegins : Begins (first.glimpsesSince after)) :
    (∃ last, second.transact polls mode = some (outcome, last) ∧
      Same Transaction.Alike after last) ∧
    (∀ budget operations, Option.Rel (InStep (Same Transaction.Alike))
      (performAll (perform budget) (.transact mode :: operations) first)
      (performAll (perform budget) (.transact mode :: operations) second)) ∧
    (∀ frame, outcome = .received frame →
      frame.bytes = heardOn (sinceCall (first.glimpsesSince after))) ∧
    (first.signalsSince after).filterMap Signal.driven? =
      List.replicate (readsAsked [] (first.glimpsesSince after)) .high := by
  have hcall := transact_alike hsame hdone hbegins
  obtain ⟨actions, hundergoes, hlogged⟩ := transact_logged hdone
  refine ⟨?_, ?_, ?_, ?_⟩
  · exact step_of_some (hcall polls) hdone
  · intro budget operations
    have hfirst : Option.Rel (InStep (Same Transaction.Alike))
        (first.perform budget (.transact mode)) (second.perform budget (.transact mode)) := by
      apply step_bind (hcall budget)
      intro ending one two hafter
      exact .some ⟨rfl, hafter⟩
    rw [performAll, performAll]
    apply step_bind hfirst
    intro reply one two hafter
    apply step_bind (performAll_alike hafter budget operations)
    intro replies last other hlast
    exact .some ⟨rfl, hlast⟩
  · intro frame hframe
    have hheard : frame.bytes = heardOn (sinceCall ([] ++ first.glimpsesSince after)) :=
      hundergoes.frame_heard hframe (.inr hbegins)
    rwa [List.nil_append] at hheard
  · obtain ⟨signals, htrace, -, -, hdriven⟩ := hlogged.trace
    rw [signalsSince_eq htrace, hdriven]
    exact hundergoes.driven_eq (.inr hbegins)

/-- A link that was left in the middle of a frame, with two bytes of it in the inbox. -/
def midFrame (steps : List ScriptStep) : Link ScriptedBoard Silent :=
  { polling steps with
    transaction := ⟨.receiving, (Inbox.empty.push readCommand).push 0x20, .empty⟩ }

theorem past_forgotten_in_mid_frame :
    ∃ outcome after, (midFrame pushedInPieces).transact 7 .blocking = some (outcome, after) ∧
      outcome.frame?.map Frame.bytes = some [0x85, 0x02] ∧
      Same Transaction.SameQueue (midFrame pushedInPieces) (polling pushedInPieces) ∧
      Begins ((midFrame pushedInPieces).glimpsesSince after) ∧
      ((∃ last, (polling pushedInPieces).transact 7 .blocking = some (outcome, last) ∧
          Same Transaction.Alike after last) ∧
        (∀ budget operations, Option.Rel (InStep (Same Transaction.Alike))
          (performAll (perform budget) (.transact .blocking :: operations)
            (midFrame pushedInPieces))
          (performAll (perform budget) (.transact .blocking :: operations)
            (polling pushedInPieces))) ∧
        (∀ frame, outcome = .received frame →
          frame.bytes = heardOn (sinceCall ((midFrame pushedInPieces).glimpsesSince after))) ∧
        ((midFrame pushedInPieces).signalsSince after).filterMap Signal.driven? =
          List.replicate (readsAsked [] ((midFrame pushedInPieces).glimpsesSince after))
            .high) := by
  have hrun : ((midFrame pushedInPieces).transact 7 .blocking).map
      (fun done => (done.1.frame?.map Frame.bytes,
        decide (Begins ((midFrame pushedInPieces).glimpsesSince done.2)))) =
      some (some [0x85, 0x02], true) := by decide
  have hsame : Same Transaction.SameQueue (midFrame pushedInPieces) (polling pushedInPieces) :=
    ⟨rfl, rfl, rfl, rfl, rfl⟩
  obtain ⟨⟨outcome, after⟩, hdone, hall⟩ := Option.map_eq_some_iff.mp hrun
  obtain ⟨hframe, hcalled⟩ := Prod.mk.inj hall
  have hbegins := of_decide_eq_true hcalled
  exact ⟨outcome, after, hdone, hframe, hsame, hbegins,
    past_forgotten_when_called hsame hdone hbegins⟩

end Link

end EcLink
