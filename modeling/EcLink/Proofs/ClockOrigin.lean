import EcLink.Clocked
import EcLink.Proofs.BoardShift

/-!
# It does not matter since when the clock has been running

The millisecond counter wraps after forty-nine days, and a host that has been running for so long
meets the wrap in the middle of whatever it does. On a `Stamped` board every access is written down
with its time, and takes as long as the bus behind it likes. **Begun so many milliseconds later,
every history is the same**: the same replies, the same states, the same accesses in the same order,
and all times later by just as much.
-/

namespace EcLink

theorem Instant.ofNanos_later (millis nanos : Nat) :
    ofNanos (nanos + millis * nanosPerMilli) = (ofNanos nanos).later (UInt32.ofNat millis) := by
  have hwhole : (nanos + millis * nanosPerMilli) / nanosPerMilli = nanos / nanosPerMilli + millis :=
    Nat.add_mul_div_right nanos millis (by decide)
  rw [ofNanos, hwhole, UInt32.ofNat_add]
  rfl

/-! ### Boards that tell the time of every access -/

/-- An access to a board: something passes between the link and the hardware, or the link looks at
    the clock. -/
inductive Access
  | passed (signal : Signal)
  | looked
  deriving DecidableEq, Repr

/-- A bus with a clock and all accesses, each with the nanoseconds gone by when it began, most
    recent first. How long an access takes depends on the bus. -/
structure Stamped {β : Type} (pace : Access → β → Nat) where
  bus : β
  nanos : Nat
  history : List (Nat × Access)

namespace Stamped

variable {β : Type} {pace : Access → β → Nat}

def atTime (bus : β) (nanos : Nat) : Stamped pace := ⟨bus, nanos, []⟩

def note (access : Access) (bus : β) (stamped : Stamped pace) : Stamped pace where
  bus := bus
  nanos := stamped.nanos + pace access stamped.bus
  history := (stamped.nanos, access) :: stamped.history

instance [Bus β] : Board (Stamped pace) where
  poll stamped :=
    let (status, bus) := Registers.poll stamped.bus
    (status, stamped.note (.passed (.polled status)) bus)
  sample stamped :=
    let (byte, bus) := Registers.sample stamped.bus
    (byte, stamped.note (.passed (.sampled byte)) bus)
  send byte stamped := stamped.note (.passed (.sent byte)) (Registers.send byte stamped.bus)
  drive level stamped :=
    let (worked, bus) := Bus.drive level stamped.bus
    (worked, stamped.note (.passed (.drove level worked)) bus)
  pause nanos stamped := stamped.note (.passed (.paused nanos)) stamped.bus
  now stamped := (Instant.ofNanos stamped.nanos, stamped.note .looked stamped.bus)

/-- The same, so many nanoseconds later. -/
def delayed (gap : Nat) (stamped : Stamped pace) : Stamped pace where
  bus := stamped.bus
  nanos := stamped.nanos + gap
  history := stamped.history.map fun (nanos, access) => (nanos + gap, access)

/-- The same, so many milliseconds later. -/
def later (millis : Nat) : Stamped pace → Stamped pace := delayed (millis * Instant.nanosPerMilli)

theorem note_delayed (gap : Nat) (access : Access) (bus : β) (stamped : Stamped pace) :
    (stamped.delayed gap).note access bus = (stamped.note access bus).delayed gap := by
  simp only [note, delayed, List.map_cons, Nat.add_right_comm]

variable [Bus β]

-- The gap stays a variable here: a million is too large a number to compute with step by step.
theorem delayed_shifts {gap : Nat} {ticks : UInt32}
    (hshown : ∀ nanos, Instant.ofNanos (nanos + gap) = (Instant.ofNanos nanos).later ticks) :
    ClockShift ticks (delayed gap : Stamped pace → Stamped pace) where
  poll stamped := congrArg (Prod.mk _) (note_delayed gap _ _ stamped)
  sample stamped := congrArg (Prod.mk _) (note_delayed gap _ _ stamped)
  send byte stamped := note_delayed gap _ _ stamped
  drive level stamped := congrArg (Prod.mk _) (note_delayed gap _ _ stamped)
  pause nanos stamped := note_delayed gap _ _ stamped
  now stamped := by
    apply Prod.ext
    · exact hshown stamped.nanos
    · exact note_delayed gap .looked stamped.bus stamped

theorem later_shifts (millis : Nat) :
    ClockShift (UInt32.ofNat millis) (later millis : Stamped pace → Stamped pace) :=
  delayed_shifts (Instant.ofNanos_later millis)

/-- Polls take as long as the bus says, and pauses as long as was asked for. -/
def exactPace : Access → β → Nat
  | .passed (.polled _), bus => Bus.pollNanos bus
  | .passed (.paused nanos), _ => nanos
  | _, _ => 0

def clocked (stamped : Stamped (exactPace : Access → β → Nat)) : Clocked β :=
  ⟨stamped.bus, stamped.nanos⟩

/-- At the exact pace, the stamps change nothing. -/
theorem clocked_shifts : ClockShift 0 (clocked : Stamped exactPace → Clocked β) where
  poll stamped := rfl
  sample stamped := rfl
  send byte stamped := rfl
  drive level stamped := rfl
  pause nanos stamped := rfl
  now stamped := by
    apply Prod.ext
    · exact (Instant.later_zero _).symm
    · rfl

end Stamped

/-- **It does not matter since when the clock has been running.** Whatever is asked of a link, a
    channel or a host, and however long the accesses to its board take: begun so many milliseconds
    later, all replies are the same, or missing in the same place, and so is all that is left in the
    end, except that the clock and the times of all accesses are later by so many milliseconds. This
    covers a new host from its first operation on. At the exact pace, and without its stamps, the
    board is the one with an exact clock. -/
theorem clock_origin_irrelevant {β κ π δ : Type} [Bus β] [Console κ] [Peripherals π δ]
    (pace : Access → β → Nat) (polls millis : Nat) :
    (∀ (operations : List LinkOperation) (link : Link (Stamped pace) κ),
      performAll (Link.perform polls) operations (link.onBoard (Stamped.later millis)) =
        (performAll (Link.perform polls) operations link).map
          (Prod.map id (Link.onBoard (Stamped.later millis)))) ∧
    (∀ (operations : List ChannelOperation) (channel : Channel (Stamped pace) κ),
      performAll (Channel.perform polls) operations (channel.onBoard (Stamped.later millis)) =
        (performAll (Channel.perform polls) operations channel).map
          (Prod.map id (Channel.onBoard (Stamped.later millis)))) ∧
    (∀ (operations : List (HostOperation δ)) (host : Host (Stamped pace) κ π δ),
      performAll (Host.perform polls) operations (host.onBoard (Stamped.later millis)) =
        (performAll (Host.perform polls) operations host).map
          (Prod.map id (Host.onBoard (Stamped.later millis)))) ∧
    (∀ (operations : List (HostOperation δ)) (bus : β) (nanos : Nat) (console : κ)
        (config : Config) (devices : π),
      performAll (Host.perform polls) operations
          (.fresh (.atTime bus (nanos + millis * Instant.nanosPerMilli) : Stamped pace) console
            config devices) =
        (performAll (Host.perform polls) operations
          (.fresh (.atTime bus nanos : Stamped pace) console config devices)).map
          (Prod.map id (Host.onBoard (Stamped.later millis)))) ∧
    ∀ (operations : List (HostOperation δ)) (host : Host (Stamped Stamped.exactPace) κ π δ),
      performAll (Host.perform polls) operations
          (host.onBoard (Stamped.clocked : Stamped Stamped.exactPace → Clocked β)) =
        (performAll (Host.perform polls) operations host).map
          (Prod.map id (Host.onBoard Stamped.clocked)) := by
  have hlater : ClockShift (UInt32.ofNat millis)
      (Stamped.later millis : Stamped pace → Stamped pace) := Stamped.later_shifts millis
  refine ⟨?_, ?_, ?_, ?_, ?_⟩
  · exact performAll_map (Link.perform_onBoard hlater polls)
  · exact performAll_map (Channel.perform_onBoard hlater polls)
  · exact performAll_map (Host.perform_onBoard hlater polls)
  · intro operations bus nanos console config devices
    exact performAll_map (Host.perform_onBoard hlater polls) operations
      (.fresh (.atTime bus nanos) console config devices)
  · exact performAll_map (Host.perform_onBoard Stamped.clocked_shifts polls)

end EcLink
