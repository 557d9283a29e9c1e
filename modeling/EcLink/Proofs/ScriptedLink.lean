import EcLink.Proofs.PlayedTransactions
import EcLink.ScriptedBus

/-!
# A link on a scripted bus

On a scripted bus a link does what its transaction does when it plays the script, one poll for each
step, as long as there is time. `Link.turns_of_plays` carries a whole play over to the link. The
clock is exact, so time is a sum over the steps: each takes a poll, and each that is not ready a
pause after it.
-/

namespace EcLink

/-! ### Time -/

/-- How long the polls of a script and the pauses between them take. -/
def duration (tick pause : Nat) : List ScriptStep → Nat
  | [] => 0
  | step :: steps => tick + (if step.status.isReady then 0 else pause) + duration tick pause steps

/-- While the counter has not gone all the way round, its gap is that of the milliseconds. -/
theorem Instant.toNat_ticks_sub {started now : Nat} (hafter : started ≤ now)
    (hnarrow : now / nanosPerMilli - started / nanosPerMilli < UInt32.size) :
    ((ofNanos now).ticks - (ofNanos started).ticks).toNat =
      now / nanosPerMilli - started / nanosPerMilli := by
  have horder : started / nanosPerMilli ≤ now / nanosPerMilli := Nat.div_le_div_right hafter
  simp only [UInt32.size] at hnarrow
  simp only [ofNanos, UInt32.toNat_sub, UInt32.toNat_ofNat']
  omega

theorem Instant.gap_le_of_within {started now millis : Nat}
    (hwithin : now ≤ started + millis * nanosPerMilli) :
    now / nanosPerMilli - started / nanosPerMilli ≤ millis := by
  have hgap : now / nanosPerMilli ≤ started / nanosPerMilli + millis := by
    rw [← Nat.add_mul_div_right _ _ (by decide : 0 < nanosPerMilli)]
    exact Nat.div_le_div_right hwithin
  omega

/-- Within so many milliseconds, the counter does not show more of them. -/
theorem Instant.since_le_of_within {started now millis : Nat} (hafter : started ≤ now)
    (hwithin : now ≤ started + millis * nanosPerMilli) (hnarrow : millis < UInt32.size) :
    (ofNanos now).since (ofNanos started) ≤ millis := by
  have hgap := gap_le_of_within hwithin
  simp only [since, toNat_ticks_sub hafter (Nat.lt_of_le_of_lt hgap hnarrow)]
  split <;> omega

/-! ### What can be seen -/

namespace Signal

def isDeed : Signal → Bool
  | .sent _ => true
  | .drove _ _ => true
  | _ => false

end Signal

namespace Action

/-- What can be seen of an action, given whether the request line can be let go of. -/
def deed? (works : Bool) : Action → Option Signal
  | .send byte => some (.sent byte)
  | .release => some (.drove .high works)
  | .drop => none
  | .tell _ => none

def isDrop : Action → Bool
  | .drop => true
  | _ => false

end Action

namespace Link

variable {κ : Type}

def script (link : Link ScriptedBoard κ) : List ScriptStep := (ScriptedBoard.bus link.board).steps

def tick (link : Link ScriptedBoard κ) : Nat := (ScriptedBoard.bus link.board).tick

/-- What polls find once the script is over. -/
def tail (link : Link ScriptedBoard κ) : Status := (ScriptedBoard.bus link.board).tail

def nanos (link : Link ScriptedBoard κ) : Nat := ScriptedBoard.nanos link.board

def releases (link : Link ScriptedBoard κ) : Bool := !(ScriptedBoard.bus link.board).highFails

def deeds (link : Link ScriptedBoard κ) : List Signal := link.board.trace.filter Signal.isDeed

def pauseNanos (link : Link ScriptedBoard κ) : Nat :=
  link.config.pollMicros.toNat * Instant.nanosPerMicro

def settleNanos (link : Link ScriptedBoard κ) : Nat :=
  link.config.settleMillis.toNat * Instant.nanosPerMilli

def timeoutNanos (link : Link ScriptedBoard κ) : Nat :=
  link.config.timeoutMillis.toNat * Instant.nanosPerMilli

/-- A link that is somewhere in a script. -/
structure Stands (stance : Stance) (steps : List ScriptStep) (link : Link ScriptedBoard κ) :
    Prop where
  transaction : link.transaction = stance.transaction
  register : (ScriptedBoard.bus link.board).data = stance.register
  script : link.script = steps

/-- On the way from one link to another these actions were taken, in this time. -/
structure Travels (actions : List Action) (time : Nat) (before after : Link ScriptedBoard κ) :
    Prop where
  config : after.config = before.config
  tick : after.tick = before.tick
  releases : after.releases = before.releases
  nanos : after.nanos = before.nanos + time
  deeds : after.deeds = before.deeds ++ actions.filterMap (Action.deed? before.releases)
  dropped : after.diagnostics.dropped.count =
    min (before.diagnostics.dropped.count + actions.countP Action.isDrop) counterCeiling

theorem Travels.idly {before after : Link ScriptedBoard κ} {time : Nat}
    (hconfig : after.config = before.config) (htick : after.tick = before.tick)
    (hreleases : after.releases = before.releases) (hnanos : after.nanos = before.nanos + time)
    (hdeeds : after.deeds = before.deeds)
    (hdropped : after.diagnostics.dropped = before.diagnostics.dropped) :
    Travels [] time before after := by
  have hbound := before.diagnostics.dropped.count_le
  refine ⟨hconfig, htick, hreleases, hnanos, by rw [hdeeds]; simp, ?_⟩
  rw [hdropped, List.countP_nil]
  omega

theorem Travels.trans {first second third : Link ScriptedBoard κ} {earlier later : List Action}
    {time more : Nat} (hearlier : Travels earlier time first second)
    (hlater : Travels later more second third) :
    Travels (earlier ++ later) (time + more) first third := by
  refine ⟨hlater.config.trans hearlier.config, hlater.tick.trans hearlier.tick,
    hlater.releases.trans hearlier.releases, ?_, ?_, ?_⟩
  · rw [hlater.nanos, hearlier.nanos, Nat.add_assoc]
  · rw [hlater.deeds, hearlier.deeds, hearlier.releases, List.filterMap_append, List.append_assoc]
  · rw [hlater.dropped, hearlier.dropped, List.countP_append]
    omega

theorem Travels.pauseNanos {before after : Link ScriptedBoard κ} {actions : List Action}
    {time : Nat} (htravels : Travels actions time before after) :
    after.pauseNanos = before.pauseNanos := by
  rw [Link.pauseNanos, htravels.config, Link.pauseNanos]

theorem Travels.timeoutNanos {before after : Link ScriptedBoard κ} {actions : List Action}
    {time : Nat} (htravels : Travels actions time before after) :
    after.timeoutNanos = before.timeoutNanos := by
  rw [Link.timeoutNanos, htravels.config, Link.timeoutNanos]

theorem Travels.leaves_time {before after : Link ScriptedBoard κ} {actions : List Action}
    {time started : Nat} (htravels : Travels actions time before after) {steps : List ScriptStep}
    (hwithin : before.nanos + (time + duration before.tick before.pauseNanos steps) ≤
      started + before.timeoutNanos) :
    after.nanos + duration after.tick after.pauseNanos steps ≤ started + after.timeoutNanos := by
  rw [htravels.nanos, htravels.tick, htravels.pauseNanos, htravels.timeoutNanos, Nat.add_assoc]
  exact hwithin

theorem deeds_note {signal : Signal} (hquiet : signal.isDeed = false)
    {before after : Link ScriptedBoard κ}
    (htrace : after.board.trace = before.board.trace ++ [signal]) :
    after.deeds = before.deeds := by
  rw [deeds, deeds, htrace, List.filter_append]
  simp [hquiet]

theorem deeds_note_deed {signal : Signal} (hdeed : signal.isDeed = true)
    {before after : Link ScriptedBoard κ}
    (htrace : after.board.trace = before.board.trace ++ [signal]) :
    after.deeds = before.deeds ++ [signal] := by
  rw [deeds, deeds, htrace, List.filter_append]
  simp [hdeed]

/-! ### One poll -/

variable {stance : Stance} {step : ScriptStep} {steps : List ScriptStep}
  {link : Link ScriptedBoard κ}

theorem poll_stands (hstands : Stands stance (step :: steps) link) :
    link.poll.1 = step.status ∧ Stands (stance.find step) steps link.poll.2 ∧
      Travels [] link.tick link link.poll.2 := by
  obtain ⟨htransaction, hregister, hscript⟩ := hstands
  have hpolled : ScriptedBus.poll (ScriptedBoard.bus link.board) =
      (step.status, { ScriptedBoard.bus link.board with
        steps, data := step.data.getD (ScriptedBoard.bus link.board).data }) := by
    unfold ScriptedBus.poll
    change (ScriptedBoard.bus link.board).steps = _ at hscript
    rw [hscript]
  have hbus : ScriptedBoard.bus link.poll.2.board =
      (ScriptedBus.poll (ScriptedBoard.bus link.board)).2 := rfl
  refine ⟨congrArg Prod.fst hpolled, ⟨htransaction, ?_, ?_⟩, ?_⟩
  · rw [hbus, hpolled]
    simp [Stance.find, hregister]
  · rw [script, hbus, hpolled]
  · apply Travels.idly
    · rfl
    · rw [tick, hbus, hpolled]
      rfl
    · rw [releases, hbus, hpolled]
      rfl
    · rfl
    · exact deeds_note rfl (Traced.trace_note _ _ _)
    · rfl

theorem poll_silent (hscript : link.script = []) :
    link.poll.1 = link.tail ∧
      ScriptedBoard.bus link.poll.2.board = ScriptedBoard.bus link.board ∧
      link.poll.2.config = link.config := by
  have hpolled : ScriptedBus.poll (ScriptedBoard.bus link.board) =
      (link.tail, ScriptedBoard.bus link.board) := by
    unfold ScriptedBus.poll
    change (ScriptedBoard.bus link.board).steps = _ at hscript
    rw [hscript]
    rfl
  exact ⟨congrArg Prod.fst hpolled, congrArg Prod.snd hpolled, rfl⟩

theorem freshByte_stands (status : Status) (hstands : Stands stance steps link) :
    (link.freshByte status stance.byte).1 = stance.heard status ∧
      Stands stance steps (link.freshByte status stance.byte).2 ∧
      Travels [] 0 link (link.freshByte status stance.byte).2 := by
  obtain ⟨htransaction, hregister, hscript⟩ := hstands
  unfold freshByte Stance.heard
  split
  · refine ⟨hregister, ⟨htransaction, hregister, hscript⟩, ?_⟩
    exact Travels.idly rfl rfl rfl rfl (deeds_note rfl (Traced.trace_note _ _ _)) rfl
  · exact ⟨rfl, ⟨htransaction, hregister, hscript⟩, Travels.idly rfl rfl rfl rfl rfl rfl⟩

theorem isLate_of_within {started : Nat} (hafter : started ≤ link.nanos)
    (hwithin : link.nanos ≤ started + link.timeoutNanos) :
    link.isLate (.ofNanos started) = (false, link) := by
  have hnarrow := link.config.timeoutMillis.toNat_lt_size
  have hsince : (Instant.ofNanos link.nanos).since (.ofNanos started) ≤
      link.config.timeoutMillis.toNat := Instant.since_le_of_within hafter hwithin hnarrow
  have hnot : decide (link.config.timeoutMillis.toNat <
      (Instant.ofNanos link.nanos).since (.ofNanos started)) = false := by
    simpa using hsince
  exact Prod.ext hnot rfl

theorem pause_stands (time : Nat) (hstands : Stands stance steps link) :
    Stands stance steps { link with board := Board.pause time link.board } ∧
      Travels [] time link { link with board := Board.pause time link.board } :=
  ⟨⟨hstands.transaction, hstands.register, hstands.script⟩,
    Travels.idly rfl rfl rfl rfl (deeds_note rfl (Traced.trace_note _ _ _)) rfl⟩

theorem turn_eq [Console κ] (start : Instant) (mode : Mode) (byte : UInt8) :
    link.turn start mode byte =
      if link.poll.1.isReady then link.poll.2.respond start link.poll.1 byte
      else link.poll.2.waitOn start mode byte := rfl

theorem turn_of_idle [Console κ] (hstands : Stands stance (step :: steps) link)
    (hidle : step.status.isReady = false) {started : Nat} (hafter : started ≤ link.nanos)
    (hwithin : link.nanos + link.tick ≤ started + link.timeoutNanos) :
    ∃ after, link.turn (.ofNanos started) .blocking stance.byte = (.again stance.byte, after) ∧
      Stands (stance.find step) steps after ∧
      Travels [] (link.tick + link.pauseNanos) link after := by
  obtain ⟨hstatus, hfound, hpolled⟩ := poll_stands hstands
  obtain ⟨hpaused, htime⟩ := pause_stands link.pauseNanos hfound
  have hlate : link.poll.2.isLate (.ofNanos started) = (false, link.poll.2) := by
    apply isLate_of_within
    · rw [hpolled.nanos]
      omega
    · rw [hpolled.nanos]
      exact hwithin
  refine ⟨_, ?_, hpaused, hpolled.trans htime⟩
  rw [turn_eq, hstatus, hidle, if_neg Bool.false_ne_true, waitOn, hlate]
  rfl

/-! ### One reaction -/

variable [Console κ]

theorem drive_high (link : Link ScriptedBoard κ) :
    (link.drive .high).2.board.trace = link.board.trace ++ [.drove .high link.releases] ∧
      ScriptedBoard.bus (link.drive .high).2.board = ScriptedBoard.bus link.board ∧
      (link.drive .high).2.nanos = link.nanos ∧
      (link.drive .high).2.config = link.config ∧
      (link.drive .high).2.transaction = link.transaction ∧
      (link.drive .high).2.diagnostics.dropped = link.diagnostics.dropped := by
  have htrace : (Board.drive .high link.board).2.trace =
      link.board.trace ++ [.drove .high link.releases] := Traced.trace_note _ _ _
  unfold drive
  dsimp only
  split <;> exact ⟨htrace, rfl, rfl, rfl, rfl, rfl⟩

theorem act_stands (action : Action) (hstands : Stands stance steps link) :
    Stands stance steps (link.act action) ∧ Travels [action] 0 link (link.act action) := by
  obtain ⟨htransaction, hregister, hscript⟩ := hstands
  have hbound := link.diagnostics.dropped.count_le
  have hsame : link.diagnostics.dropped.count =
      min (link.diagnostics.dropped.count + 0) counterCeiling := by omega
  cases action with
  | send byte =>
      refine ⟨⟨htransaction, hregister, hscript⟩, rfl, rfl, rfl, rfl, ?_, hsame⟩
      exact deeds_note_deed rfl (Traced.trace_note _ _ _)
  | release =>
      obtain ⟨htrace, hbus, hnanos, hconfig, hkept, hdropped⟩ := link.drive_high
      have hdeeds : (link.act .release).deeds = link.deeds ++ [.drove .high link.releases] :=
        deeds_note_deed rfl htrace
      refine ⟨⟨hkept.trans htransaction, ?_, ?_⟩, hconfig, ?_, ?_, hnanos, hdeeds, ?_⟩
      · exact (congrArg ScriptedBus.data hbus).trans hregister
      · exact (congrArg ScriptedBus.steps hbus).trans hscript
      · exact congrArg ScriptedBus.tick hbus
      · exact congrArg (fun bus : ScriptedBus => !bus.highFails) hbus
      · exact (congrArg Tally.count hdropped).trans hsame
  | drop =>
      refine ⟨⟨htransaction, hregister, hscript⟩, rfl, rfl, rfl, rfl, ?_, Tally.count_bump _⟩
      exact (List.append_nil _).symm
  | tell notice =>
      refine ⟨⟨htransaction, hregister, hscript⟩, rfl, rfl, rfl, rfl, ?_, hsame⟩
      exact (List.append_nil _).symm

theorem foldl_act_stands (actions : List Action) (hstands : Stands stance steps link) :
    Stands stance steps (actions.foldl act link) ∧
      Travels actions 0 link (actions.foldl act link) := by
  induction actions generalizing link with
  | nil => exact ⟨hstands, Travels.idly rfl rfl rfl rfl rfl rfl⟩
  | cons action actions ih =>
      obtain ⟨hfirst, htravels⟩ := act_stands action hstands
      obtain ⟨hrest, hlater⟩ := ih hfirst
      exact ⟨hrest, htravels.trans hlater⟩

theorem respond_stands {address : UInt8} (haddress : link.config.address = address)
    (hstands : Stands (stance.find step) steps link) (start : Instant) :
    ∃ after, Stands (stance.next address step) steps after ∧
      Travels (stance.reaction address step).actions 0 link after ∧
      link.respond start step.status stance.byte =
        match (stance.reaction address step).verdict step.status with
        | some outcome => (.finished outcome, after)
        | none =>
            (if (after.isLate start).1 then .finished (.failed .timeout)
              else .again (stance.next address step).byte, (after.isLate start).2) := by
  have hfresh := freshByte_stands step.status hstands
  have hbyte : (link.freshByte step.status stance.byte).1 = (stance.next address step).byte :=
    hfresh.1
  have hheard : Stands (stance.find step) steps (link.freshByte step.status stance.byte).2 :=
    hfresh.2.1
  have hsampled : Travels [] 0 link (link.freshByte step.status stance.byte).2 := hfresh.2.2
  have hreaction : (link.freshByte step.status stance.byte).2.transaction.answer
      (link.freshByte step.status stance.byte).2.config.address step.status
        (link.freshByte step.status stance.byte).1 = stance.reaction address step := by
    rw [hheard.transaction, hsampled.config, haddress, hbyte]
    rfl
  rw [respond_eq]
  dsimp only
  rw [answered, hreaction, hbyte]
  have hadopted : Stands (stance.next address step) steps
      { (link.freshByte step.status stance.byte).2 with
        transaction := (stance.reaction address step).transaction } :=
    ⟨rfl, hheard.register, hheard.script⟩
  obtain ⟨hfinal, htravels⟩ := foldl_act_stands (stance.reaction address step).actions hadopted
  have hadoption : Travels [] 0 (link.freshByte step.status stance.byte).2
      { (link.freshByte step.status stance.byte).2 with
        transaction := (stance.reaction address step).transaction } :=
    Travels.idly rfl rfl rfl rfl rfl rfl
  exact ⟨_, hfinal, hsampled.trans (hadoption.trans htravels), rfl⟩

theorem turn_of_goesOn {address : UInt8} (haddress : link.config.address = address)
    (hstands : Stands stance (step :: steps) link) (hready : step.status.isReady = true)
    (hverdict : (stance.reaction address step).verdict step.status = none) {started : Nat}
    (hafter : started ≤ link.nanos)
    (hwithin : link.nanos + link.tick ≤ started + link.timeoutNanos) (mode : Mode) :
    ∃ after, link.turn (.ofNanos started) mode stance.byte =
        (.again (stance.next address step).byte, after) ∧
      Stands (stance.next address step) steps after ∧
      Travels (stance.reaction address step).actions link.tick link after := by
  obtain ⟨hstatus, hfound, hpolled⟩ := poll_stands hstands
  have haddress' : link.poll.2.config.address = address := by
    rw [hpolled.config]
    exact haddress
  obtain ⟨after, hnext, htravels, hrespond⟩ := respond_stands haddress' hfound (.ofNanos started)
  have hall : Travels (stance.reaction address step).actions link.tick link after :=
    hpolled.trans htravels
  have hlate : after.isLate (.ofNanos started) = (false, after) := by
    apply isLate_of_within
    · rw [hall.nanos]
      omega
    · rw [hall.nanos, timeoutNanos, hall.config]
      exact hwithin
  refine ⟨after, ?_, hnext, hall⟩
  rw [turn_eq, hstatus, hready, if_pos rfl, hrespond, hverdict]
  dsimp only
  rw [hlate]
  rfl

theorem turn_of_ends {address : UInt8} (haddress : link.config.address = address)
    (hstands : Stands stance (step :: steps) link) (hready : step.status.isReady = true)
    {outcome : Outcome}
    (hverdict : (stance.reaction address step).verdict step.status = some outcome)
    (start : Instant) (mode : Mode) :
    ∃ after, link.turn start mode stance.byte = (.finished outcome, after) ∧
      Stands (stance.next address step) steps after ∧
      Travels (stance.reaction address step).actions link.tick link after := by
  obtain ⟨hstatus, hfound, hpolled⟩ := poll_stands hstands
  have haddress' : link.poll.2.config.address = address := by
    rw [hpolled.config]
    exact haddress
  obtain ⟨after, hnext, htravels, hrespond⟩ := respond_stands haddress' hfound start
  refine ⟨after, ?_, hnext, hpolled.trans htravels⟩
  rw [turn_eq, hstatus, hready, if_pos rfl, hrespond, hverdict]

/-! ### A whole script -/

theorem turns_again {middle : Link ScriptedBoard κ} {start : Instant} {polls time : Nat}
    {byte heard : UInt8} {first actions : List Action} {outcome : Outcome} {final : Transaction}
    {rest : List ScriptStep} (hturn : link.turn start .blocking byte = (.again heard, middle))
    (htravels : Travels first time link middle)
    (hlater : ∃ after, middle.turns start polls .blocking heard = some (outcome, after) ∧
      after.transaction = final ∧ after.script = rest ∧
      Travels actions (duration middle.tick middle.pauseNanos steps) middle after) :
    ∃ after, link.turns start (polls + 1) .blocking byte = some (outcome, after) ∧
      after.transaction = final ∧ after.script = rest ∧
      Travels (first ++ actions) (time + duration link.tick link.pauseNanos steps) link after := by
  obtain ⟨after, hturns, hfinal, hscript, hmore⟩ := hlater
  rw [htravels.tick, htravels.pauseNanos] at hmore
  refine ⟨after, ?_, hfinal, hscript, htravels.trans hmore⟩
  rw [turns, hturn]
  exact hturns

/-- **A link plays a script as its transaction does**, and has played all of it when it is done. -/
theorem turns_of_plays {address : UInt8} {actions : List Action} {outcome : Outcome}
    {final : Transaction} (hplays : Plays address stance steps actions outcome final)
    {rest : List ScriptStep} (haddress : link.config.address = address)
    (hstands : Stands stance (steps ++ rest) link) {started : Nat} (hafter : started ≤ link.nanos)
    (hwithin : link.nanos + duration link.tick link.pauseNanos steps ≤
      started + link.timeoutNanos) {polls : Nat} (hpolls : steps.length ≤ polls) :
    ∃ after, link.turns (.ofNanos started) polls .blocking stance.byte = some (outcome, after) ∧
      after.transaction = final ∧ after.script = rest ∧
      Travels actions (duration link.tick link.pauseNanos steps) link after := by
  -- Every step of the play takes one poll and its share of the time, and leaves the link standing
  -- where the rest of the play begins.
  induction hplays generalizing link polls with
  | @idle stance step steps actions outcome final hidle hlater ih =>
      obtain ⟨fewer, rfl⟩ := Nat.exists_eq_add_of_lt hpolls
      rw [duration, hidle, if_neg Bool.false_ne_true] at hwithin ⊢
      obtain ⟨middle, hturn, hfound, htravels⟩ := turn_of_idle hstands hidle hafter (by omega)
      refine turns_again hturn htravels (ih ?_ hfound ?_ (htravels.leaves_time hwithin) ?_)
      · rw [htravels.config]
        exact haddress
      · rw [htravels.nanos]
        omega
      · omega
  | @goesOn stance step steps actions outcome final hready hverdict hlater ih =>
      obtain ⟨fewer, rfl⟩ := Nat.exists_eq_add_of_lt hpolls
      rw [duration, hready, if_pos rfl] at hwithin ⊢
      obtain ⟨middle, hturn, hnext, htravels⟩ :=
        turn_of_goesOn haddress hstands hready hverdict hafter (by omega) .blocking
      refine turns_again hturn htravels (ih ?_ hnext ?_ (htravels.leaves_time hwithin) ?_)
      · rw [htravels.config]
        exact haddress
      · rw [htravels.nanos]
        omega
      · omega
  | @ends stance step outcome hready hverdict =>
      obtain ⟨fewer, rfl⟩ := Nat.exists_eq_add_of_lt hpolls
      obtain ⟨after, hturn, hnext, htravels⟩ :=
        turn_of_ends haddress hstands hready hverdict (.ofNanos started) .blocking
      refine ⟨after, ?_, hnext.transaction, hnext.script, ?_⟩
      · rw [turns, hturn]
      · rw [duration, hready, if_pos rfl]
        exact htravels

/-! ### What polls find in the end -/

theorem Move.tail_eq {before after : Link ScriptedBoard κ} (hmove : Move before after) :
    after.tail = before.tail := by
  cases hmove with
  | poll =>
      change (ScriptedBus.poll (ScriptedBoard.bus before.board)).2.tail = before.tail
      unfold ScriptedBus.poll
      split <;> rfl
  | sample => rfl
  | look => rfl
  | pause nanos => rfl
  | adopt transaction => rfl
  | act action =>
      cases action with
      | release =>
          obtain ⟨-, hbus, -⟩ := before.drive_high
          exact congrArg ScriptedBus.tail hbus
      | _ => rfl

theorem Moves.keep_tail {before after : Link ScriptedBoard κ} (hmoves : Moves before after) :
    after.tail = before.tail := by
  apply hmoves.lift (R := fun before after => after.tail = before.tail)
  · intro link
    rfl
  · intro first second third hearlier hlater
    exact hlater.trans hearlier
  · intro before after hmove
    exact hmove.tail_eq

theorem settle_tail (link : Link ScriptedBoard κ) : link.settle.2.tail = link.tail :=
  (settle_moves link).keep_tail

end Link

end EcLink
