/-!
# Millisecond instants

The time base of the link is a free-running 32-bit millisecond counter. It wraps after about
forty-nine days, so two instants are compared by their difference modulo `2 ^ 32`: a gap of up
to half the range counts as time gone by, and a larger gap means that the later instant is
really the earlier one, which counts as no time at all.
-/

namespace EcLink

/-- A reading of the 32-bit millisecond counter. -/
structure Instant where
  ticks : UInt32
  deriving DecidableEq, Repr

namespace Instant

def nanosPerMilli : Nat := 1_000_000

def nanosPerMicro : Nat := 1_000

/-- The longest gap, in milliseconds, that is read as time gone by. -/
def halfRange : Nat := 0x7fffffff

def ofNanos (nanos : Nat) : Instant := ⟨UInt32.ofNat (nanos / nanosPerMilli)⟩

/-- Milliseconds from `start` to `now`, and zero if `now` lies before `start`. -/
def since (now start : Instant) : Nat :=
  let gap := (now.ticks - start.ticks).toNat
  if gap ≤ halfRange then gap else 0

@[simp] theorem since_self (instant : Instant) : instant.since instant = 0 := by
  simp [since, halfRange]

theorem since_le (now start : Instant) : now.since start ≤ halfRange := by
  simp only [since]; split <;> omega

end Instant

end EcLink
