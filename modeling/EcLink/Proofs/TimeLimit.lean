import EcLink.Proofs.ClockOrigin
import EcLink.Proofs.Reactions
import EcLink.Proofs.ScriptedLink
import Mathlib.Logic.Function.Iterate

/-!
# A call is over in time

Nothing that the controller does can hold a call for ever: the clock is looked at after every poll
that leaves it open, and it goes on with every poll. But it is looked at through a counter of whole
milliseconds that wraps, and a difference of more than half its range counts as none. **A call comes
to an end, at the latest one millisecond, one pause and one poll after its limit**, or with the
first poll after a longer delay, and reports that it is too late only when it is. The millisecond is
lost by cutting off what is not whole; that the counter may wrap in the middle of the call is
nothing to it, as long as the whole call stays within half the range.
-/

namespace EcLink

/-! ### The counter and the time -/

namespace Instant

theorem since_ofNanos {started now : Nat} (hafter : started ≤ now)
    (hnarrow : now ≤ started + halfRange * nanosPerMilli) :
    (ofNanos now).since (ofNanos started) = now / nanosPerMilli - started / nanosPerMilli := by
  have hgap := gap_le_of_within hnarrow
  have hsmall : halfRange < UInt32.size := by decide
  simp only [since, toNat_ticks_sub hafter (Nat.lt_of_le_of_lt hgap hsmall)]
  exact if_pos hgap

/-- What the counter shows has gone by. -/
theorem lt_of_lt_since {started now millis : Nat} (hafter : started ≤ now)
    (hnarrow : now ≤ started + halfRange * nanosPerMilli)
    (hshown : millis < (ofNanos now).since (ofNanos started)) :
    started + millis * nanosPerMilli < now := by
  rw [since_ofNanos hafter hnarrow] at hshown
  by_contra hearly
  have hgap := gap_le_of_within (Nat.le_of_not_lt hearly)
  omega

/-- What the counter does not show has not gone by, but for what is not a whole millisecond. -/
theorem lt_of_not_lt_since {started now millis : Nat} (hafter : started ≤ now)
    (hnarrow : now ≤ started + halfRange * nanosPerMilli)
    (hshown : ¬ millis < (ofNanos now).since (ofNanos started)) :
    now < started + (millis + 1) * nanosPerMilli := by
  rw [since_ofNanos hafter hnarrow] at hshown
  by_contra hlate
  have hgap : started / nanosPerMilli + (millis + 1) ≤ now / nanosPerMilli := by
    rw [← Nat.add_mul_div_right _ _ (by decide : 0 < nanosPerMilli)]
    exact Nat.div_le_div_right (Nat.le_of_not_lt hlate)
  omega

end Instant

namespace Config

def settleNanos (config : Config) : Nat := config.settleMillis.toNat * Instant.nanosPerMilli

def timeoutNanos (config : Config) : Nat := config.timeoutMillis.toNat * Instant.nanosPerMilli

def pauseNanos (config : Config) : Nat := config.pollMicros.toNat * Instant.nanosPerMicro

/-- A call with polls that take so long, and two milliseconds more, are over before half the range
    of the counter is. -/
def StaysInRange (tick : Nat) (config : Config) : Prop :=
  max config.settleNanos config.timeoutNanos + config.pauseNanos + tick +
    2 * Instant.nanosPerMilli < (Instant.halfRange + 1) * Instant.nanosPerMilli

instance (tick : Nat) (config : Config) : Decidable (config.StaysInRange tick) :=
  inferInstanceAs (Decidable (_ < _))

end Config

/-! ### A steady pace -/

/-- Every poll takes the same time and every pause the time that was asked for. Nothing else takes
    any. -/
def steadyPace {β : Type} (tick : Nat) : Access → β → Nat
  | .passed (.polled _), _ => tick
  | .passed (.paused nanos), _ => nanos
  | _, _ => 0

/-- A bus with a clock that goes on by so many nanoseconds with every poll. -/
abbrev Steady (β : Type) (tick : Nat) : Type := Stamped (steadyPace tick : Access → β → Nat)

/-- The bus after a poll. -/
def polledOn {β : Type} [Registers β] (bus : β) : β := (Registers.poll bus).2

/-- Whatever is polled from here on is not ready. -/
def NeverReady {β : Type} [Registers β] (bus : β) : Prop :=
  ∀ count, (Registers.poll (polledOn^[count] bus)).1.isReady = false

theorem NeverReady.polled {β : Type} [Registers β] {bus : β} (hnever : NeverReady bus) :
    NeverReady (Registers.poll bus).2 := by
  intro count
  exact hnever (count + 1)

namespace Link

variable {β κ : Type} {tick : Nat}

/-- On the way from one link to another, so much time goes by. -/
structure Takes (nanos : Nat) (before after : Link (Steady β tick) κ) : Prop where
  config : after.config = before.config
  nanos : after.board.nanos = before.board.nanos + nanos

theorem Takes.trans {first second third : Link (Steady β tick) κ} {nanos more : Nat}
    (hearlier : Takes nanos first second) (hlater : Takes more second third) :
    Takes (nanos + more) first third :=
  ⟨hlater.config.trans hearlier.config, by rw [hlater.nanos, hearlier.nanos, Nat.add_assoc]⟩

/-- The clock shows that more than the limit has gone by. -/
def isOverdue (start : Instant) (link : Link (Steady β tick) κ) : Prop :=
  link.config.timeoutMillis.toNat < (Instant.ofNanos link.board.nanos).since start

/-- A call that was begun at some time and is about to poll has not gone on for too long. -/
structure Underway (entry : Nat) (link : Link (Steady β tick) κ) : Prop where
  began : entry ≤ link.board.nanos
  within : link.board.nanos ≤ entry + max link.config.settleNanos
    (link.config.timeoutNanos + Instant.nanosPerMilli + link.config.pauseNanos)

variable {entry : Nat} {link polled middle : Link (Steady β tick) κ}

theorem Underway.in_range (hunderway : Underway entry link)
    (hrange : link.config.StaysInRange tick) (htakes : Takes tick link polled) :
    entry ≤ polled.board.nanos ∧
      polled.board.nanos ≤ entry + Instant.halfRange * Instant.nanosPerMilli := by
  have hbegan := hunderway.began
  have hwithin := hunderway.within
  have hnow := htakes.nanos
  simp only [Config.StaysInRange, Instant.halfRange, Instant.nanosPerMilli] at *
  omega

theorem Underway.of_overdue (hunderway : Underway entry link)
    (hrange : link.config.StaysInRange tick) (htakes : Takes tick link polled)
    (hlate : polled.isOverdue (.ofNanos entry)) :
    entry + link.config.timeoutNanos < polled.board.nanos := by
  obtain ⟨hafter, hnarrow⟩ := hunderway.in_range hrange htakes
  rw [← htakes.config]
  exact Instant.lt_of_lt_since hafter hnarrow hlate

theorem Underway.of_not_overdue (hunderway : Underway entry link)
    (hrange : link.config.StaysInRange tick) (htakes : Takes tick link polled)
    (hearly : ¬ polled.isOverdue (.ofNanos entry)) :
    polled.board.nanos < entry + link.config.timeoutNanos + Instant.nanosPerMilli := by
  obtain ⟨hafter, hnarrow⟩ := hunderway.in_range hrange htakes
  have hbound := Instant.lt_of_not_lt_since hafter hnarrow hearly
  rw [htakes.config, Nat.add_mul, Nat.one_mul, ← Nat.add_assoc] at hbound
  exact hbound

variable [Bus β]

theorem poll_takes (link : Link (Steady β tick) κ) : Takes tick link link.poll.2 := ⟨rfl, rfl⟩

/-- Settling is a pause, for any time: a million nanoseconds are too many to be counted here. -/
theorem settle_takes (link : Link (Steady β tick) κ) :
    Takes link.config.settleNanos link link.settle.2 := by
  have hpaused : ∀ nanos, Takes nanos link
      { link with board := Board.pause nanos (Board.now link.board).2 } := fun _ => ⟨rfl, rfl⟩
  exact hpaused _

theorem settle_bus (link : Link (Steady β tick) κ) :
    link.settle.2.board.bus = link.board.bus := by
  have hpaused : ∀ nanos, (Board.pause nanos (Board.now link.board).2).bus = link.board.bus :=
    fun _ => rfl
  exact hpaused _

theorem freshByte_takes (status : Status) (byte : UInt8) (link : Link (Steady β tick) κ) :
    Takes 0 link (link.freshByte status byte).2 := by
  unfold freshByte
  split
  · exact ⟨rfl, rfl⟩
  · exact ⟨rfl, rfl⟩

theorem isLate_takes (start : Instant) (link : Link (Steady β tick) κ) :
    Takes 0 link (link.isLate start).2 := ⟨rfl, rfl⟩

theorem isLate_iff (start : Instant) (link : Link (Steady β tick) κ) :
    (link.isLate start).1 = true ↔ (link.isLate start).2.isOverdue start := decide_eq_true_iff

/-- How a turn may leave things: the call is over right after its poll, and too late only when it is
    overdue; or it is not overdue, and there was a pause if the word was not ready. -/
inductive Elapses (start : Instant) (mode : Mode) (link : Link (Steady β tick) κ) :
    Turn → Link (Steady β tick) κ → Prop
  | finished {outcome : Outcome} {after : Link (Steady β tick) κ} (htakes : Takes tick link after)
      (hlate : outcome = .failed .timeout → after.isOverdue start)
      (hidle : link.poll.1.isReady = false → mode = .blocking → outcome = .failed .timeout) :
      Elapses start mode link (.finished outcome) after
  | responded {heard : UInt8} {after : Link (Steady β tick) κ}
      (hready : link.poll.1.isReady = true) (htakes : Takes tick link after)
      (hearly : ¬ after.isOverdue start) : Elapses start mode link (.again heard) after
  | waited {heard : UInt8} {looked after : Link (Steady β tick) κ}
      (hidle : link.poll.1.isReady = false) (htakes : Takes tick link looked)
      (hearly : ¬ looked.isOverdue start) (hpaused : Takes link.config.pauseNanos looked after)
      (hbus : after.board.bus = (Registers.poll link.board.bus).2) :
      Elapses start mode link (.again heard) after

theorem waitOn_elapses (start : Instant) (mode : Mode) (byte : UInt8)
    (link : Link (Steady β tick) κ) (hidle : link.poll.1.isReady = false) :
    Elapses start mode link (link.poll.2.waitOn start mode byte).1
      (link.poll.2.waitOn start mode byte).2 := by
  cases mode with
  | nonBlocking =>
      refine .finished (poll_takes link) ?_ ?_
      · intro hlate
        cases hlate
      · intro _ hblocking
        cases hblocking
  | blocking =>
      have hlooked := (poll_takes link).trans (isLate_takes start link.poll.2)
      simp only [waitOn]
      split
      · rename_i hlate
        exact .finished hlooked (fun _ => (isLate_iff start _).mp hlate) fun _ _ => rfl
      · rename_i hearly
        exact .waited hidle hlooked (by rwa [← isLate_iff]) ⟨rfl, rfl⟩ rfl

/-- **From one poll to the next there is always time left**, and a call that goes on is still under
    way. -/
theorem Underway.goes_on {mode : Mode} {heard : UInt8} (hunderway : Underway entry link)
    (hrange : link.config.StaysInRange tick)
    (helapses : Elapses (.ofNanos entry) mode link (.again heard) middle) :
    Underway entry middle ∧ middle.config = link.config ∧
      link.board.nanos + tick < entry + link.config.timeoutNanos + Instant.nanosPerMilli := by
  cases helapses with
  | responded hready htakes hearly =>
      have hbound := hunderway.of_not_overdue hrange htakes hearly
      have hnow := htakes.nanos
      have hbegan := hunderway.began
      refine ⟨⟨by omega, ?_⟩, htakes.config, by omega⟩
      rw [htakes.config]
      omega
  | @waited _ looked _ hidle htakes hearly hpaused hbus =>
      have hbound := hunderway.of_not_overdue hrange htakes hearly
      have hlooked := htakes.nanos
      have hnow := hpaused.nanos
      have hbegan := hunderway.began
      have hconfig := hpaused.config.trans htakes.config
      refine ⟨⟨by omega, ?_⟩, hconfig, by omega⟩
      rw [hconfig]
      omega

/-- Time goes on from one poll to the next: by polling, or else by pausing, where there is never
    anything else to be done. -/
def GoesOn (link : Link (Steady β tick) κ) : Prop :=
  0 < tick ∨ (0 < link.config.pauseNanos ∧ NeverReady link.board.bus)

theorem GoesOn.settled (hgoesOn : GoesOn link) : GoesOn link.settle.2 := by
  unfold GoesOn
  rw [(settle_takes link).config, settle_bus]
  exact hgoesOn

theorem GoesOn.again {start : Instant} {mode : Mode} {heard : UInt8} (hgoesOn : GoesOn link)
    (helapses : Elapses start mode link (.again heard) middle) :
    GoesOn middle ∧ link.board.nanos < middle.board.nanos := by
  cases helapses with
  | responded hready htakes hearly =>
      rcases hgoesOn with hticks | ⟨-, hnever⟩
      · have hnow := htakes.nanos
        exact ⟨.inl hticks, by omega⟩
      · have hidle : link.poll.1.isReady = false := hnever 0
        simp [hidle] at hready
  | waited hidle htakes hearly hpaused hbus =>
      have hlooked := htakes.nanos
      have hnow := hpaused.nanos
      rcases hgoesOn with hticks | ⟨hpauses, hnever⟩
      · exact ⟨.inl hticks, by omega⟩
      · refine ⟨.inr ⟨?_, ?_⟩, by omega⟩
        · rwa [hpaused.config, htakes.config]
        · rw [hbus]
          exact hnever.polled

variable [Console κ]

theorem act_takes (action : Action) (link : Link (Steady β tick) κ) :
    Takes 0 link (link.act action) := by
  cases action with
  | send byte => exact ⟨rfl, rfl⟩
  | release =>
      simp only [act, drive]
      split
      · exact ⟨rfl, rfl⟩
      · exact ⟨rfl, rfl⟩
  | drop => exact ⟨rfl, rfl⟩
  | tell notice => exact ⟨rfl, rfl⟩

theorem foldl_act_takes (actions : List Action) (link : Link (Steady β tick) κ) :
    Takes 0 link (actions.foldl act link) := by
  induction actions generalizing link with
  | nil => exact ⟨rfl, rfl⟩
  | cons action actions ih => exact (act_takes action link).trans (ih (link.act action))

theorem answered_takes (status : Status) (byte : UInt8) (link : Link (Steady β tick) κ) :
    Takes 0 link (link.answered status byte) := by
  have hactions := foldl_act_takes
    (link.transaction.answer link.config.address status byte).actions
    { link with transaction :=
      (link.transaction.answer link.config.address status byte).transaction }
  exact ⟨hactions.config, hactions.nanos⟩

theorem respond_elapses (start : Instant) (mode : Mode) (byte : UInt8)
    (link : Link (Steady β tick) κ) (hready : link.poll.1.isReady = true) :
    Elapses start mode link (link.poll.2.respond start link.poll.1 byte).1
      (link.poll.2.respond start link.poll.1 byte).2 := by
  have hheard := (poll_takes link).trans (freshByte_takes link.poll.1 byte link.poll.2)
  have hanswered := hheard.trans (answered_takes link.poll.1
    (link.poll.2.freshByte link.poll.1 byte).1 (link.poll.2.freshByte link.poll.1 byte).2)
  rw [respond_eq]
  dsimp only
  split
  · rename_i outcome hverdict
    refine .finished hanswered ?_ (by simp [hready])
    rintro rfl
    exact (Transaction.verdict_not_givenUp hverdict (.inr rfl)).elim
  · have hlooked := hanswered.trans (isLate_takes start _)
    split
    · rename_i hlate
      exact .finished hlooked (fun _ => (isLate_iff start _).mp hlate) (by simp [hready])
    · rename_i hearly
      exact .responded hready hlooked (by rwa [← isLate_iff])

theorem turn_elapses {start : Instant} {mode : Mode} {byte : UInt8} {turn : Turn}
    {after : Link (Steady β tick) κ} (hturn : link.turn start mode byte = (turn, after)) :
    Elapses start mode link turn after := by
  have hpolled : link.turn start mode byte =
      if link.poll.1.isReady then link.poll.2.respond start link.poll.1 byte
      else link.poll.2.waitOn start mode byte := rfl
  rw [hpolled] at hturn
  cases hready : link.poll.1.isReady with
  | true =>
      have helapses := respond_elapses start mode byte link hready
      rw [if_pos hready] at hturn
      rwa [hturn] at helapses
  | false =>
      have helapses := waitOn_elapses start mode byte link hready
      rw [if_neg (by simp [hready])] at hturn
      rwa [hturn] at helapses

/-! ### Calls under way -/

/-- What is certain of a call however its polls turn out. -/
theorem turns_in_time {polls : Nat} {mode : Mode} {byte : UInt8}
    {after : Link (Steady β tick) κ} {outcome : Outcome} (hunderway : Underway entry link)
    (hrange : link.config.StaysInRange tick)
    (hdone : link.turns (.ofNanos entry) polls mode byte = some (outcome, after)) :
    (outcome = .failed .timeout → entry + link.config.timeoutNanos < after.board.nanos) ∧
      after.board.nanos ≤ entry + max (link.config.settleNanos + tick)
        (link.config.timeoutNanos + Instant.nanosPerMilli + link.config.pauseNanos + tick) := by
  induction polls generalizing mode byte link with
  | zero => cases hdone
  | succ polls ih =>
      rw [turns] at hdone
      rcases hturn : link.turn (.ofNanos entry) mode byte with ⟨turn, middle⟩
      have helapses := turn_elapses hturn
      rw [hturn] at hdone
      cases turn with
      | finished ending =>
          cases hdone
          cases helapses with
          | finished htakes hlate hidle =>
              refine ⟨?_, ?_⟩
              · intro htimeout
                exact hunderway.of_overdue hrange htakes (hlate htimeout)
              · rw [Nat.add_max_add_right, htakes.nanos, ← Nat.add_assoc]
                exact Nat.add_le_add_right hunderway.within tick
      | again heard =>
          obtain ⟨hmiddle, hconfig, -⟩ := hunderway.goes_on hrange helapses
          have hrest := ih hmiddle (by rwa [hconfig]) hdone
          rwa [hconfig] at hrest

/-- **A call with nothing to see is too late in the end.** -/
theorem turns_never_ready {start : Instant} {polls : Nat} {byte : UInt8}
    {after : Link (Steady β tick) κ} {outcome : Outcome} (hnever : NeverReady link.board.bus)
    (hdone : link.turns start polls .blocking byte = some (outcome, after)) :
    outcome = .failed .timeout := by
  induction polls generalizing byte link with
  | zero => cases hdone
  | succ polls ih =>
      have hidle : link.poll.1.isReady = false := hnever 0
      rw [turns] at hdone
      rcases hturn : link.turn start .blocking byte with ⟨turn, middle⟩
      have helapses := turn_elapses hturn
      rw [hturn] at hdone
      cases turn with
      | finished ending =>
          cases hdone
          cases helapses with
          | finished htakes hlate hquiet => exact hquiet hidle rfl
      | again heard =>
          cases helapses with
          | responded hready => simp [hidle] at hready
          | waited _ _ _ _ hbus =>
              have hrest : NeverReady middle.board.bus := by
                rw [hbus]
                exact hnever.polled
              exact ih hrest hdone

theorem turns_return_of_again {start : Instant} {polls : Nat} {mode : Mode} {byte : UInt8}
    (hagain : ∀ heard middle, link.turn start mode byte = (.again heard, middle) →
      ∃ done, middle.turns start polls .blocking heard = some done) :
    ∃ done, link.turns start (polls + 1) mode byte = some done := by
  rw [turns]
  rcases hturn : link.turn start mode byte with ⟨turn, middle⟩
  cases turn with
  | finished outcome => exact ⟨(outcome, middle), rfl⟩
  | again heard => exact hagain heard middle hturn

/-- **There are polls enough for every call.** They are counted by the nanoseconds that are left. -/
theorem turns_return {left : Nat} {mode : Mode} {byte : UInt8} (hunderway : Underway entry link)
    (hrange : link.config.StaysInRange tick) (hgoesOn : GoesOn link)
    (hleft : entry + link.config.timeoutNanos + Instant.nanosPerMilli ≤ link.board.nanos + left) :
    ∃ done, link.turns (.ofNanos entry) (left + 1) mode byte = some done := by
  induction left generalizing mode byte link with
  | zero =>
      apply turns_return_of_again
      intro heard middle hturn
      obtain ⟨-, -, hearly⟩ := hunderway.goes_on hrange (turn_elapses hturn)
      omega
  | succ left ih =>
      apply turns_return_of_again
      intro heard middle hturn
      have helapses := turn_elapses hturn
      obtain ⟨hmiddle, hconfig, -⟩ := hunderway.goes_on hrange helapses
      obtain ⟨hmoving, hlater⟩ := hgoesOn.again helapses
      apply ih hmiddle (by rwa [hconfig]) hmoving
      rw [hconfig]
      omega

/-- **Every call is over, and in time.** Let every poll take the same time, and let the settling
    time or the limit, with a pause, a poll and two milliseconds, stay within half the range of the
    counter, wherever that stands. If polls take any time at all, or pauses do and no poll ever
    finds anything, a call returns. It reports that it is too late only when more than its limit has
    gone by, and returns at the latest one poll after settling, or one millisecond, one pause and
    one poll after its limit. A call that waits for something that never comes is too late. -/
theorem transact_on_time {mode : Mode} (hrange : link.config.StaysInRange tick)
    (hgoesOn : GoesOn link) :
    (∃ polls done, link.transact polls mode = some done) ∧
    ∀ polls outcome after, link.transact polls mode = some (outcome, after) →
      (outcome = .failed .timeout →
        link.board.nanos + link.config.timeoutNanos < after.board.nanos) ∧
      after.board.nanos ≤ link.board.nanos + max (link.config.settleNanos + tick)
        (link.config.timeoutNanos + Instant.nanosPerMilli + link.config.pauseNanos + tick) ∧
      (mode = .blocking → NeverReady link.board.bus → outcome = .failed .timeout) := by
  have hsettled := settle_takes link
  have htransact : ∀ polls, link.transact polls mode =
      link.settle.2.turns (.ofNanos link.board.nanos) polls mode 0 := fun _ => rfl
  have hunderway : Underway link.board.nanos link.settle.2 := by
    have hnow := hsettled.nanos
    refine ⟨by omega, ?_⟩
    rw [hsettled.config]
    omega
  rw [← hsettled.config] at hrange
  refine ⟨?_, ?_⟩
  · have hleft : link.board.nanos + link.settle.2.config.timeoutNanos + Instant.nanosPerMilli ≤
        link.settle.2.board.nanos +
          (link.settle.2.config.timeoutNanos + Instant.nanosPerMilli) := by
      have hnow := hsettled.nanos
      omega
    obtain ⟨done, hdone⟩ := turns_return hunderway hrange hgoesOn.settled hleft
    rw [← htransact] at hdone
    exact ⟨_, done, hdone⟩
  · intro polls outcome after hdone
    rw [htransact] at hdone
    obtain ⟨hlate, hbound⟩ := turns_in_time hunderway hrange hdone
    rw [hsettled.config] at hlate hbound
    refine ⟨hlate, hbound, ?_⟩
    rintro rfl hnever
    rw [← settle_bus] at hnever
    exact turns_never_ready hnever hdone

/-- A link with a short limit on a silent bus, two milliseconds before the counter wraps. -/
def beforeWrap : Link (Steady ScriptedBus 1_000) Silent :=
  .fresh (.atTime (.idle .quiet 0) (4_294_967_294 * Instant.nanosPerMilli)) {}
    { settleMillis := 1, timeoutMillis := 3, pollMicros := 1_000 }

theorem transact_on_time_over_wrap :
    beforeWrap.config.StaysInRange 1_000 ∧ GoesOn beforeWrap ∧
      (beforeWrap.transact 6 .blocking).map Prod.fst = some (.failed .timeout) ∧
      (∃ polls done, beforeWrap.transact polls .blocking = some done) ∧
      ∀ polls outcome after, beforeWrap.transact polls .blocking = some (outcome, after) →
        (outcome = .failed .timeout →
          beforeWrap.board.nanos + beforeWrap.config.timeoutNanos < after.board.nanos) ∧
        after.board.nanos ≤ beforeWrap.board.nanos + max (beforeWrap.config.settleNanos + 1_000)
          (beforeWrap.config.timeoutNanos + Instant.nanosPerMilli +
            beforeWrap.config.pauseNanos + 1_000) ∧
        (Mode.blocking = .blocking → NeverReady beforeWrap.board.bus →
          outcome = .failed .timeout) := by
  have hrange : beforeWrap.config.StaysInRange 1_000 := by decide
  have hgoesOn : GoesOn beforeWrap := .inl (by decide)
  exact ⟨hrange, hgoesOn, by decide, transact_on_time hrange hgoesOn⟩

end Link

end EcLink
