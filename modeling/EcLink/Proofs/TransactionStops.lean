import EcLink.Proofs.FrameBytes
import EcLink.Proofs.Lockstep

/-!
# No call goes past a stop

The master ends a transaction with a stop, and what it puts on the bus after that belongs to the
next one. **A call of the link that polls a stop is over with that poll**, whatever the transaction
was in the middle of, and only a call that has polled one reports a transaction as done. A word that
is not ready is no stop, even with the stop bit set: the bit might as well be cleared.
-/

namespace EcLink

namespace Status

/-- The word says that the master has stopped. -/
def ends (status : Status) : Bool := status.isReady && status.isStop

/-- The same word without the stop bit, if it is not ready. -/
def tidied (status : Status) : Status :=
  if status.isReady then status else ⟨status.word &&& ~~~stopBit⟩

theorem isReady_tidied (status : Status) : status.tidied.isReady = status.isReady := by
  have hkept : ~~~stopBit &&& interruptBit = interruptBit := by decide
  unfold tidied
  split
  · rfl
  · simp only [isReady, has, UInt32.and_assoc, hkept]

/-- In a tidied word the stop bit is only set where it counts. -/
theorem isStop_tidied (status : Status) : status.tidied.isStop = status.ends := by
  have hcleared : ~~~stopBit &&& stopBit = 0 := by decide
  unfold tidied ends
  cases hready : status.isReady with
  | true => simp
  | false => simp [isStop, has, UInt32.and_assoc, hcleared]

end Status

def Signal.polled? : Signal → Option Status
  | .polled status => some status
  | _ => none

/-! ### Where a call ends -/

/-- How a call may end on a stop. -/
def Outcome.EndsStopped (outcome : Outcome) : Prop :=
  outcome.isDone = true ∨ outcome = .failed .protocolViolation ∨
    ∃ received, outcome = .failed (.addressMismatch received)

namespace Transaction

variable {address : UInt8} {glimpse : Glimpse} {transaction next : Transaction}
  {actions : List Action} {outcome : Outcome}

/-- A poll that leaves a call open is no stop. -/
theorem not_ends_of_open (hopen : (transaction.meet address glimpse).outcome = none) :
    glimpse.status.ends = false := by
  unfold Status.ends
  cases hready : glimpse.status.isReady with
  | false => rfl
  | true =>
      rw [meet, if_pos hready] at hopen
      dsimp only [Reaction.verdict] at hopen
      split at hopen
      · cases hopen
      · cases hstop : glimpse.status.isStop with
        | false => rfl
        | true => simp [hstop] at hopen

theorem Concludes.endsStopped
    (hconcludes : Concludes address glimpse transaction actions outcome next)
    (hstop : glimpse.status.isStop = true) : outcome.EndsStopped := by
  cases hconcludes with
  | cutShort => exact .inl rfl
  | delivered => exact .inl rfl
  | sent => exact .inl rfl
  | wrongRead => exact .inr (.inl rfl)
  | earlyStop => exact .inr (.inl rfl)
  | stranger => exact .inr (.inr ⟨_, rfl⟩)
  | exhausted hgoesOn =>
      rw [hstop] at hgoesOn
      cases hgoesOn

end Transaction

/-- **A stop is the last poll of a call**, and tells how the call may end. -/
theorem Undergoes.last_poll {address : UInt8} {transaction final : Transaction}
    {glimpses : List Glimpse} {actions : List Action} {outcome : Outcome}
    (hundergoes : Undergoes address transaction glimpses actions outcome final) :
    ∃ earlier last, glimpses.map Glimpse.status = earlier ++ [last] ∧
      (∀ status ∈ earlier, status.ends = false) ∧
      (outcome.isDone = true → last.ends = true) ∧
      (last.ends = true → outcome.EndsStopped) := by
  induction hundergoes with
  | @goesOn transaction final glimpse glimpses actions outcome hopen hlater ih =>
      obtain ⟨earlier, last, hpolled, hnone, hstops⟩ := ih
      refine ⟨glimpse.status :: earlier, last, ?_, ?_, hstops⟩
      · rw [List.map_cons, hpolled, List.cons_append]
      · intro status hmem
        rcases List.mem_cons.mp hmem with rfl | hmem
        · exact Transaction.not_ends_of_open hopen
        · exact hnone status hmem
  | @ends transaction glimpse outcome hends =>
      obtain ⟨hready, hconcludes⟩ := Transaction.meet_concludes hends
      have hstops : glimpse.status.ends = glimpse.status.isStop := by
        rw [Status.ends, hready, Bool.true_and]
      refine ⟨[], glimpse.status, rfl, by simp, ?_, ?_⟩
      · intro hdone
        rw [hstops]
        exact hconcludes.stop_of_done hdone
      · intro hlast
        rw [hstops] at hlast
        exact hconcludes.endsStopped hlast
  | @givenUp transaction glimpse outcome hopen hreason =>
      have hgoesOn := Transaction.not_ends_of_open hopen
      refine ⟨[], glimpse.status, rfl, by simp, ?_, ?_⟩
      · intro hdone
        rcases hreason with rfl | rfl <;> cases hdone
      · intro hlast
        rw [hgoesOn] at hlast
        cases hlast

/-! ### Boards with tidied words -/

/-- The same board, on which no poll finds a stop bit without the word being ready. -/
structure Tidied (σ : Type) where
  board : σ

instance {σ : Type} [Board σ] : Board (Tidied σ) where
  poll tidied :=
    let (status, board) := Registers.poll tidied.board
    (status.tidied, ⟨board⟩)
  sample tidied :=
    let (byte, board) := Registers.sample tidied.board
    (byte, ⟨board⟩)
  send byte tidied := ⟨Registers.send byte tidied.board⟩
  drive level tidied :=
    let (worked, board) := Board.drive level tidied.board
    (worked, ⟨board⟩)
  pause nanos tidied := ⟨Board.pause nanos tidied.board⟩
  now tidied :=
    let (instant, board) := Board.now tidied.board
    (instant, ⟨board⟩)

def Likeness.tidied (σ κ : Type) : Likeness σ (Tidied σ) κ κ where
  board first second := second = ⟨first⟩
  console := Eq
  word first second := second = first.tidied

theorem Likeness.tidied_lasts (σ κ : Type) [Board σ] [Console κ] :
    (Likeness.tidied σ κ).Lasts 0 where
  ready := by
    rintro status _ rfl
    exact status.isReady_tidied
  same := by
    rintro status _ rfl hready
    exact if_pos hready
  poll := by
    rintro board _ rfl
    exact ⟨rfl, rfl⟩
  sample := by
    rintro board _ rfl
    exact ⟨rfl, rfl⟩
  send := by
    rintro byte board _ rfl
    rfl
  drive := by
    rintro level board _ rfl
    exact ⟨rfl, rfl⟩
  pause := by
    rintro nanos board _ rfl
    rfl
  now := by
    rintro board _ rfl
    exact ⟨(Instant.later_zero _).symm, rfl⟩
  tell := by
    rintro notice console _ rfl
    rfl

namespace Link

variable {σ κ : Type}

/-- The same link on a board with tidied words. -/
def tidied (link : Link σ κ) : Link (Tidied σ) κ :=
  { link with
    board := ⟨link.board⟩
    diagnostics := { link.diagnostics with
      lastStatus := link.diagnostics.lastStatus.map Status.tidied } }

theorem like_tidied (link : Link σ κ) : Like (.tidied σ κ) Eq link link.tidied where
  board := rfl
  console := rfl
  config := rfl
  transaction := rfl
  dropped := rfl
  signalFailures := rfl
  lastStatus := by
    unfold tidied
    cases link.diagnostics.lastStatus with
    | none => exact .none
    | some status => exact .some rfl

theorem tidied_of_like (first : Link σ κ) (second : Link (Tidied σ) κ)
    (hlike : Like (.tidied σ κ) Eq first second) : second = first.tidied := by
  rcases first with ⟨board, console, config, transaction, dropped, failures, last⟩
  rcases second with ⟨board', console', config', transaction', dropped', failures', last'⟩
  obtain ⟨hboard, hconsole, hconfig, htransaction, hdropped, hfailures, hlast⟩ := hlike
  cases hboard
  cases hconsole
  cases hconfig
  cases htransaction
  cases hdropped
  cases hfailures
  cases hlast with
  | none => rfl
  | some hword =>
      cases hword
      rfl

/-- The words that were polled since an earlier state. -/
def statusesSince (before after : Link (Traced σ) κ) : List Status :=
  (before.signalsSince after).filterMap Signal.polled?

theorem Logged.statuses_eq {glimpses : List Glimpse} {actions : List Action}
    {before after : Link (Traced σ) κ}
    (hlogged : Logged (glimpses.flatMap Glimpse.inputs) actions before after) :
    before.statusesSince after = glimpses.map Glimpse.status := by
  obtain ⟨signals, htrace, hinputs, -⟩ := hlogged.trace
  have hinput : signals.filterMap Signal.polled? =
      (signals.filter Signal.isInput).filterMap Signal.polled? := by
    rw [List.filterMap_filter]
    apply List.filterMap_congr
    intro signal _
    cases signal <;> rfl
  rw [statusesSince, signalsSince_eq htrace, hinput, hinputs, List.filterMap_flatMap,
    List.map_eq_flatMap]
  apply List.flatMap_congr
  intro glimpse _
  unfold Glimpse.inputs
  split
  · rfl
  · rfl

variable [Board σ] [Console κ]

/-- **A stop bit counts only in a word that is ready.** -/
theorem transact_tidied (polls : Nat) (mode : Mode) (link : Link σ κ) :
    link.tidied.transact polls mode = (link.transact polls mode).map (Prod.map id tidied) :=
  map_of_step (transact_like (Likeness.tidied_lasts σ κ) respected_eq polls mode link.like_tidied)
    tidied_of_like

/-! ### The calls of a link -/

/-- **No call goes past a stop.** Of the words that a call polls, a stop is the last. The call
    reports a transaction as done only after a stop; and after a stop it reports that, an address
    that is not ours, or a violation of the protocol, but never that it was too late. With the stop
    bit cleared in all words that are not ready, it takes the same course. -/
theorem never_past_a_stop {polls : Nat} {mode : Mode} {link after : Link (Traced σ) κ}
    {outcome : Outcome} (hdone : link.transact polls mode = some (outcome, after)) :
    (∀ place status, (link.statusesSince after)[place]? = some status → status.ends = true →
      (link.statusesSince after).length = place + 1) ∧
    (outcome.isDone = true →
      ∃ last, (link.statusesSince after).getLast? = some last ∧ last.ends = true) ∧
    ((∃ status ∈ link.statusesSince after, status.ends = true) → outcome.EndsStopped) ∧
    link.tidied.transact polls mode = some (outcome, after.tidied) := by
  obtain ⟨glimpses, actions, hundergoes, hlogged, -⟩ := transact_undergoes hdone
  obtain ⟨earlier, last, hpolled, hnone, hstopped, hends⟩ := hundergoes.last_poll
  rw [hlogged.statuses_eq, hpolled]
  refine ⟨?_, ?_, ?_, ?_⟩
  · intro place status hplace hstop
    rcases Nat.lt_or_ge place earlier.length with hbefore | hafter
    · rw [List.getElem?_append_left hbefore] at hplace
      rw [hnone status (List.mem_of_getElem? hplace)] at hstop
      cases hstop
    · have hbound := (List.getElem?_eq_some_iff.mp hplace).1
      rw [List.length_append, List.length_singleton] at hbound ⊢
      omega
  · intro hreported
    exact ⟨last, List.getLast?_concat, hstopped hreported⟩
  · rintro ⟨status, hmem, hstop⟩
    rcases List.mem_append.mp hmem with hbefore | hlast
    · rw [hnone status hbefore] at hstop
      cases hstop
    · rw [List.mem_singleton.mp hlast] at hstop
      exact hends hstop
  · rw [transact_tidied, hdone]
    rfl

/-- The controller pushes an event, with a stop bit in a word that is not ready, and has begun the
    next transaction when the call is over. -/
def betweenTwo : List ScriptStep :=
  [⟨⟨0x10⟩, none⟩, ⟨.start, some MasterScript.usualAddress⟩, ⟨.written, some 0x85⟩, ⟨⟨0x10⟩, none⟩,
    ⟨.stopped, some 0x02⟩, ⟨.start, some MasterScript.usualAddress⟩]

theorem never_past_a_stop_between_two :
    ∃ outcome after, (polling betweenTwo).transact 6 .blocking = some (outcome, after) ∧
      outcome.frame?.map Frame.bytes = some [0x85, 0x02] ∧
      ((∀ place status, ((polling betweenTwo).statusesSince after)[place]? = some status →
          status.ends = true → ((polling betweenTwo).statusesSince after).length = place + 1) ∧
        (outcome.isDone = true →
          ∃ last, ((polling betweenTwo).statusesSince after).getLast? = some last ∧
            last.ends = true) ∧
        ((∃ status ∈ (polling betweenTwo).statusesSince after, status.ends = true) →
          outcome.EndsStopped) ∧
        (polling betweenTwo).tidied.transact 6 .blocking = some (outcome, after.tidied)) := by
  have hrun : ((polling betweenTwo).transact 6 .blocking).map
      (fun done => done.1.frame?.map Frame.bytes) = some (some [0x85, 0x02]) := by decide
  obtain ⟨⟨outcome, after⟩, hdone, hframe⟩ := Option.map_eq_some_iff.mp hrun
  exact ⟨outcome, after, hdone, hframe, never_past_a_stop hdone⟩

end Link

end EcLink
