import EcLink.Proofs.Leftovers
import EcLink.Proofs.TimeLimit

/-!
# Calls that do not wait

A call that does not wait looks once whether the controller has anything to say. If it has not, the
call gives up on the spot, and **giving up leaves no mark on the link** but the word that was
polled: a transaction that an earlier call has left half finished is still there, half finished in
the same place. If it has, there is no telling this call from one that waits, however often the
controller falls silent before the transaction is over. The first poll is the only one that the mode
has a say in, so all of this comes down to that poll.
-/

namespace EcLink

namespace Link

variable {σ κ : Type} [Board σ]

/-! ### The first poll -/

/-- The word that the first poll of a call finds. -/
def firstStatus (link : Link σ κ) : Status := link.settle.2.poll.1

/-- The same link, on the board as it is once the bus has settled and was polled once, and with the
    word that the poll has found. -/
def glanced (link : Link σ κ) : Link σ κ :=
  { link with
    board := link.settle.2.poll.2.board
    diagnostics := { link.diagnostics with lastStatus := some link.firstStatus } }

theorem glanced_eq (link : Link σ κ) : link.settle.2.poll.2 = link.glanced := rfl

/-- An observer sees the bus settle, and one poll. -/
theorem glanced_trace (link : Link (Traced σ) κ) :
    link.glanced.board.trace = link.board.trace ++
      [.paused link.config.settleNanos, .polled link.firstStatus] := by
  have hsettled : link.settle.2.board.trace =
      link.board.trace ++ [.paused link.config.settleNanos] := Traced.trace_note _ _ _
  have hpolled : link.settle.2.poll.2.board.trace =
      link.settle.2.board.trace ++ [.polled link.firstStatus] := Traced.trace_note _ _ _
  rw [← glanced_eq, hpolled, hsettled, List.append_assoc, List.singleton_append]

/-- On an exact clock that takes the time of settling and of the poll. -/
theorem glanced_clock {β : Type} [Bus β] (link : Link (Clocked β) κ) :
    link.firstStatus = (Registers.poll link.board.bus).1 ∧
      link.glanced.board = ⟨(Registers.poll link.board.bus).2,
        link.board.nanos + link.config.settleNanos + Bus.pollNanos link.board.bus⟩ := by
  -- For any time: that of settling is too long to be counted out.
  have hpaused : ∀ nanos, Registers.poll (Board.pause nanos (Board.now link.board).2) =
      ((Registers.poll link.board.bus).1, (⟨(Registers.poll link.board.bus).2,
        link.board.nanos + nanos + Bus.pollNanos link.board.bus⟩ : Clocked β)) := fun _ => rfl
  have hpolled := hpaused link.config.settleNanos
  exact ⟨congrArg Prod.fst hpolled, congrArg Prod.snd hpolled⟩

theorem waitOn_blocking_ne_idle (start : Instant) (byte : UInt8) (link : Link σ κ) :
    (link.waitOn start .blocking byte).1 ≠ .finished .idle := by
  simp only [waitOn]
  split
  · intro hidle
    cases hidle
  · intro hidle
    cases hidle

variable [Console κ]

/-! ### Where the mode has a say -/

/-- **Once a poll is ready, the mode no longer matters.** -/
theorem turn_of_ready (start : Instant) (mode other : Mode) (byte : UInt8) {link : Link σ κ}
    (hready : link.poll.1.isReady = true) :
    link.turn start mode byte = link.turn start other byte := by
  simp only [turn, hready, if_true]

theorem turn_nonBlocking_of_idle (start : Instant) (byte : UInt8) {link : Link σ κ}
    (hidle : link.poll.1.isReady = false) :
    link.turn start .nonBlocking byte = (.finished .idle, link.poll.2) := by
  simp only [turn, hidle, Bool.false_eq_true, if_false, waitOn]

theorem turns_eq_of_ready (start : Instant) (polls : Nat) (mode other : Mode) (byte : UInt8)
    {link : Link σ κ} (hready : link.poll.1.isReady = true) :
    link.turns start polls mode byte = link.turns start polls other byte := by
  cases polls with
  | zero => rfl
  | succ polls => rw [turns, turns, turn_of_ready start mode other byte hready]

/-! ### Finding nothing -/

/-- A ready poll always finds something. -/
theorem respond_ne_idle (start : Instant) (status : Status) (byte : UInt8) (link : Link σ κ) :
    (link.respond start status byte).1 ≠ .finished .idle := by
  rw [respond_eq]
  dsimp only
  split
  · rename_i outcome hverdict
    intro hidle
    cases hidle
    exact Transaction.verdict_not_givenUp hverdict (.inl rfl)
  · split
    · intro hidle
      cases hidle
    · intro hidle
      cases hidle

theorem turn_blocking_ne_idle (start : Instant) (byte : UInt8) (link : Link σ κ) :
    (link.turn start .blocking byte).1 ≠ .finished .idle := by
  simp only [turn]
  split
  · exact respond_ne_idle start link.poll.1 byte link.poll.2
  · exact waitOn_blocking_ne_idle start byte link.poll.2

/-- **A call that waits never reports that there was nothing.** -/
theorem turns_blocking_ne_idle {start : Instant} {polls : Nat} {byte : UInt8}
    {link after : Link σ κ} : link.turns start polls .blocking byte ≠ some (.idle, after) := by
  induction polls generalizing byte link with
  | zero =>
      intro hdone
      cases hdone
  | succ polls ih =>
      intro hdone
      have hturn := turn_blocking_ne_idle start byte link
      rw [turns] at hdone
      split at hdone
      case h_1 hfinished =>
        cases hdone
        rw [hfinished] at hturn
        exact hturn rfl
      case h_2 => exact ih hdone

/-! ### The two modes -/

/-- A call that does not wait is one that does, or gives up with the first poll. -/
theorem transact_nonBlocking (polls : Nat) (link : Link σ κ) :
    link.transact (polls + 1) .nonBlocking =
      if link.firstStatus.isReady then link.transact (polls + 1) .blocking
      else some (.idle, link.glanced) := by
  cases hready : link.firstStatus.isReady with
  | true => exact turns_eq_of_ready _ _ _ _ _ hready
  | false =>
      have hturn := turn_nonBlocking_of_idle link.settle.1 0 hready
      have hgives : link.settle.2.turns link.settle.1 (polls + 1) .nonBlocking 0 =
          some (.idle, link.glanced) := by
        rw [turns, hturn, glanced_eq]
      exact hgives

/-- **A call that does not wait agrees with one that does, or leaves no mark.** If the first poll is
    not ready, it reports that there was nothing, having let the bus settle and polled it once; the
    link is the same but for its board and the last status, and the board was not touched otherwise.
    If the first poll is ready, the two calls have the same end, or neither has one, and leave the
    same link, whatever later polls find. On a clock that is exact, giving up takes the time of
    settling and of that poll. No other call ever reports that there was nothing. -/
theorem nonBlocking_agrees {β : Type} [Bus β] :
    (∀ link : Link (Traced σ) κ,
      (link.firstStatus.isReady = false → ∀ polls,
        link.transact (polls + 1) .nonBlocking = some (.idle, link.glanced)) ∧
      link.glanced = { link with
        board := link.glanced.board
        diagnostics := { link.diagnostics with lastStatus := some link.firstStatus } } ∧
      link.glanced.board.trace = link.board.trace ++
        [.paused link.config.settleNanos, .polled link.firstStatus] ∧
      (link.firstStatus.isReady = true → ∀ polls,
        link.transact polls .nonBlocking = link.transact polls .blocking) ∧
      ∀ polls mode after, link.transact polls mode = some (.idle, after) →
        mode = .nonBlocking ∧ link.firstStatus.isReady = false ∧ after = link.glanced) ∧
    (∀ link : Link (Clocked β) κ,
      link.firstStatus = (Registers.poll link.board.bus).1 ∧
      link.glanced.board = ⟨(Registers.poll link.board.bus).2,
        link.board.nanos + link.config.settleNanos + Bus.pollNanos link.board.bus⟩) := by
  refine ⟨?_, glanced_clock⟩
  intro link
  refine ⟨?_, rfl, link.glanced_trace, ?_, ?_⟩
  · intro hidle polls
    rw [transact_nonBlocking, hidle, if_neg Bool.false_ne_true]
  · intro hready polls
    cases polls with
    | zero => rfl
    | succ polls => rw [transact_nonBlocking, if_pos hready]
  · intro polls mode after hdone
    cases mode with
    | blocking => exact (turns_blocking_ne_idle hdone).elim
    | nonBlocking =>
        cases polls with
        | zero => cases hdone
        | succ polls =>
            rw [transact_nonBlocking] at hdone
            split at hdone
            · exact (turns_blocking_ne_idle hdone).elim
            · rename_i hidle
              cases hdone
              exact ⟨rfl, Bool.eq_false_iff.mpr hidle, rfl⟩

/-- The first link is in the middle of a frame, and the controller idle. The second is fresh; its
    controller begins at once, and falls silent before it is done. -/
theorem nonBlocking_agrees_in_mid_frame :
    (midFrame betweenTwo).firstStatus.isReady = false ∧
      (midFrame betweenTwo).transact 1 .nonBlocking =
        some (.idle, (midFrame betweenTwo).glanced) ∧
      (midFrame betweenTwo).glanced.transaction = (midFrame betweenTwo).transaction ∧
      (polling pushedInPieces).firstStatus.isReady = true ∧
      (polling pushedInPieces).transact 7 .nonBlocking =
        (polling pushedInPieces).transact 7 .blocking ∧
      ((polling pushedInPieces).transact 7 .nonBlocking).isSome = true := by
  have hidle : (midFrame betweenTwo).firstStatus.isReady = false := by decide
  have hready : (polling pushedInPieces).firstStatus.isReady = true := by decide
  obtain ⟨hcalls, -⟩ := nonBlocking_agrees (σ := Clocked ScriptedBus) (κ := Silent)
    (β := ScriptedBus)
  obtain ⟨hgivesUp, -⟩ := hcalls (midFrame betweenTwo)
  obtain ⟨-, -, -, hagrees, -⟩ := hcalls (polling pushedInPieces)
  exact ⟨hidle, hgivesUp hidle 0, rfl, hready, hagrees hready 7, by decide⟩

end Link

end EcLink
