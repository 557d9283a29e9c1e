import EcLink.Proofs.Moves
import EcLink.Traced

/-!
# What an observer sees of a transaction

On a traced board every access leaves a signal. A transaction never pulls the request line, and
the failure count of the link goes up by the number of times that driving the line did not work,
as far as the counter goes. Both hold for every board inside the traced one.
-/

namespace EcLink

namespace Signal

def isPull : Signal → Bool
  | .drove .low _ => true
  | _ => false

def isStuck : Signal → Bool
  | .drove _ false => true
  | _ => false

end Signal

namespace Link

variable {σ κ : Type}

/-- The signals seen on the way from one link to another, with the failures counted. -/
structure Shows (signals : List Signal) (before after : Link (Traced σ) κ) : Prop where
  trace : after.board.trace = before.board.trace ++ signals
  failures : after.diagnostics.signalFailures.count =
    min (before.diagnostics.signalFailures.count + signals.countP Signal.isStuck) counterCeiling

theorem Shows.refl (link : Link (Traced σ) κ) : Shows [] link link := by
  have hbound := link.diagnostics.signalFailures.count_le
  refine ⟨by simp, ?_⟩
  simp only [List.countP_nil]
  omega

theorem Shows.trans {first second third : Link (Traced σ) κ} {earlier later : List Signal}
    (hearlier : Shows earlier first second) (hlater : Shows later second third) :
    Shows (earlier ++ later) first third := by
  refine ⟨by rw [hlater.trace, hearlier.trace, List.append_assoc], ?_⟩
  rw [hlater.failures, hearlier.failures, List.countP_append]
  omega

theorem Shows.single {before after : Link (Traced σ) κ} {signal : Signal}
    (htrace : after.board.trace = before.board.trace ++ [signal])
    (hworked : signal.isStuck = false)
    (hsame : after.diagnostics.signalFailures = before.diagnostics.signalFailures) :
    Shows [signal] before after := by
  have hbound := before.diagnostics.signalFailures.count_le
  refine ⟨htrace, ?_⟩
  rw [hsame]
  simp only [List.countP_cons, List.countP_nil, hworked, Bool.false_eq_true, if_false]
  omega

/-- The signals of a transaction leave the request line alone or let go of it. -/
def Quietly (before after : Link (Traced σ) κ) : Prop :=
  ∃ signals, Shows signals before after ∧ ∀ signal ∈ signals, signal.isPull = false

theorem Quietly.of_single {before after : Link (Traced σ) κ} {signal : Signal}
    (hshows : Shows [signal] before after) (hpull : signal.isPull = false) :
    Quietly before after :=
  ⟨_, hshows, by simpa using hpull⟩

theorem Quietly.of_nothing {before after : Link (Traced σ) κ}
    (htrace : after.board.trace = before.board.trace)
    (hsame : after.diagnostics.signalFailures = before.diagnostics.signalFailures) :
    Quietly before after := by
  have hnothing := Shows.refl before
  refine ⟨[], ⟨by rw [htrace, List.append_nil], ?_⟩, by simp⟩
  rw [hsame]
  exact hnothing.failures

theorem Quietly.trans {first second third : Link (Traced σ) κ}
    (hearlier : Quietly first second) (hlater : Quietly second third) : Quietly first third := by
  obtain ⟨earlier, hseen, hfirst⟩ := hearlier
  obtain ⟨later, hthen, hsecond⟩ := hlater
  refine ⟨earlier ++ later, hseen.trans hthen, ?_⟩
  intro signal hsignal
  rcases List.mem_append.mp hsignal with hmem | hmem
  · exact hfirst signal hmem
  · exact hsecond signal hmem

variable [Console κ]

theorem Shows.tell {before after : Link (Traced σ) κ} {signals : List Signal}
    (hshows : Shows signals before after) (notice : Notice) :
    Shows signals before (after.tell notice) :=
  ⟨hshows.trace, hshows.failures⟩

variable [Board σ]

theorem drive_shows (level : Level) (link : Link (Traced σ) κ) :
    Shows [.drove level (link.drive level).1] link (link.drive level).2 := by
  unfold drive
  rcases hdriven : Board.drive level link.board with ⟨worked, board⟩
  have htrace : board.trace = link.board.trace ++ [.drove level worked] := by
    cases hdriven
    exact Traced.trace_note _ _ _
  cases worked with
  | true => exact Shows.single htrace rfl rfl
  | false => exact ⟨htrace, Tally.count_bump _⟩

theorem act_quietly (action : Action) (link : Link (Traced σ) κ) :
    Quietly link (link.act action) := by
  cases action with
  | send byte => exact .of_single (.single (Traced.trace_note _ _ _) rfl rfl) rfl
  | release => exact .of_single (drive_shows .high link) rfl
  | drop => exact .of_nothing rfl rfl
  | tell notice => exact .of_nothing rfl rfl

theorem Move.quietly {before after : Link (Traced σ) κ} (hmove : Move before after) :
    Quietly before after := by
  cases hmove with
  | poll => exact .of_single (.single (Traced.trace_note _ _ _) rfl rfl) rfl
  | sample => exact .of_single (.single (Traced.trace_note _ _ _) rfl rfl) rfl
  | look => exact .of_nothing rfl rfl
  | pause nanos => exact .of_single (.single (Traced.trace_note _ _ _) rfl rfl) rfl
  | adopt transaction => exact .of_nothing rfl rfl
  | act action => exact act_quietly action before

/-- **A transaction never pulls the request line**, and counts what it could not drive. -/
theorem transact_quietly {polls : Nat} {mode : Mode} {link after : Link (Traced σ) κ}
    {outcome : Outcome} (hdone : link.transact polls mode = some (outcome, after)) :
    Quietly link after :=
  (transact_moves hdone).lift (fun _ => .of_nothing rfl rfl) Quietly.trans Move.quietly

end Link

end EcLink
