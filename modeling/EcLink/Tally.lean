/-!
# Tallies that stop at a ceiling

Failure counts and diagnostics are kept in narrow counters. A counter that wrapped would turn a
long run of failures into a small number, so these counters stop instead: **once a tally has
reached its ceiling it stays there**. The ceiling is part of the type, and a tally above it
cannot be built.
-/

namespace EcLink

/-- A count that never exceeds `ceiling`. -/
structure Tally (ceiling : Nat) where
  count : Nat
  count_le : count ≤ ceiling
  deriving DecidableEq, Repr

namespace Tally

variable {ceiling : Nat}

/-- The tally nearest to `number`: the number itself, or the ceiling if that is smaller. -/
def ofNat (number : Nat) : Tally ceiling :=
  ⟨min number ceiling, Nat.min_le_right number ceiling⟩

def zero : Tally ceiling := ⟨0, Nat.zero_le ceiling⟩

def bump (tally : Tally ceiling) : Tally ceiling := ofNat (tally.count + 1)

@[simp] theorem count_zero : (zero : Tally ceiling).count = 0 := rfl

@[simp] theorem count_ofNat (number : Nat) :
    (ofNat number : Tally ceiling).count = min number ceiling := rfl

theorem count_bump (tally : Tally ceiling) :
    tally.bump.count = min (tally.count + 1) ceiling := rfl

/-- Below the ceiling a bump is an honest increment. -/
theorem count_bump_of_lt {tally : Tally ceiling} (hroom : tally.count < ceiling) :
    tally.bump.count = tally.count + 1 := by
  rw [count_bump]; omega

end Tally

end EcLink
