/-!
# Queued keys

Keys wait in a queue until somebody reads them. The queue holds two hundred and fifty-six keys.
**Once it is full the newest key is the one that is lost**: what a user typed first is never
displaced by what was typed later.
-/

namespace EcLink

structure KeyEvent where
  code : UInt16
  released : Bool
  deriving DecidableEq, Repr

/-- One number for code and state: the code in the low half, and the release flag above it. -/
def KeyEvent.packed (event : KeyEvent) : Int :=
  let state : Nat := if event.released then 0x80 else 0
  Int.ofNat (state <<< 16 ||| event.code.toNat)

def keyQueueCapacity : Nat := 256

structure KeyQueue where
  events : List KeyEvent
  length_le : events.length ≤ keyQueueCapacity
  deriving DecidableEq, Repr

/-- What reading keys came to: how many there were, the buffer they were read into, and whether
    the queue had to be refilled first. -/
structure KeyRead where
  count : Nat
  buffer : List Int
  refilled : Bool
  deriving DecidableEq, Repr

namespace KeyQueue

def empty : KeyQueue := ⟨[], Nat.zero_le _⟩

def isEmpty (queue : KeyQueue) : Bool := queue.events.isEmpty

def push? (event : KeyEvent) (queue : KeyQueue) : Option KeyQueue :=
  if hroom : queue.events.length < keyQueueCapacity then
    some ⟨queue.events ++ [event], by rw [List.length_append]; exact hroom⟩
  else
    none

def pop (queue : KeyQueue) : Option KeyEvent × KeyQueue where
  fst := queue.events.head?
  snd := ⟨queue.events.tail, by
    have hbound := queue.length_le
    simp only [List.length_tail]; omega⟩

@[simp] theorem events_pop (queue : KeyQueue) : queue.pop.2.events = queue.events.tail := rfl

theorem push?_eq_none_iff (event : KeyEvent) (queue : KeyQueue) :
    queue.push? event = none ↔ queue.events.length = keyQueueCapacity := by
  have hbound := queue.length_le
  by_cases hroom : queue.events.length < keyQueueCapacity
  · simp only [push?, dif_pos hroom, reduceCtorEq, false_iff]; omega
  · simp only [push?, dif_neg hroom, true_iff]; omega

theorem events_push? {event : KeyEvent} {queue pushed : KeyQueue}
    (hdone : queue.push? event = some pushed) : pushed.events = queue.events ++ [event] := by
  simp only [push?] at hdone
  split at hdone
  · cases hdone; rfl
  · cases hdone

end KeyQueue

/-- How to reach a key queue inside something larger. -/
structure KeyView (ρ : Type) where
  keys : ρ → KeyQueue
  withKeys : KeyQueue → ρ → ρ

namespace KeyView

variable {ρ : Type}

def haveKeys (view : KeyView ρ) (world : ρ) : Bool := !(view.keys world).isEmpty

def popEvent (view : KeyView ρ) (world : ρ) : Option KeyEvent × ρ :=
  let (event, rest) := (view.keys world).pop
  (event, view.withKeys rest world)

def popKey (view : KeyView ρ) (world : ρ) : Option Int × ρ :=
  let (event, world) := view.popEvent world
  (event.map KeyEvent.packed, world)

def drain (view : KeyView ρ) (world : ρ) : List Int × ρ :=
  ((view.keys world).events.map KeyEvent.packed, view.withKeys .empty world)

/-- Pop a key for each place of a buffer until there is none. The places that are left over keep
    what they held. -/
def popInto (view : KeyView ρ) : List Int → ρ → Nat × List Int × ρ
  | [], world => (0, [], world)
  | place :: places, world =>
      match view.popKey world with
      | (none, world) => (0, place :: places, world)
      | (some key, world) =>
          let (count, places, world) := popInto view places world
          (count + 1, key :: places, world)

/-- Read keys into a buffer. If there are none, whatever may bring some is done first, and only
    then; it may go unfinished, and then the reading does too. -/
def readKeys (view : KeyView ρ) (refill : ρ → Option ρ) (buffer : List Int)
    (world : ρ) : Option (KeyRead × ρ) := do
  let dry := !view.haveKeys world
  let world ← if dry then refill world else some world
  let (count, buffer, world) := view.popInto buffer world
  some (⟨count, buffer, dry⟩, world)

end KeyView

end EcLink
