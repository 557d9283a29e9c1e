import EcLink.Proofs.KeyDelivery

/-!
# The keyboard is a queue

Events come in at a keyboard while its keys are read, and reading may bring more of them in. A plain
list of at most two hundred and fifty-six keys says what comes of it: a key goes to its end if there
is room and is lost otherwise, keys are taken from its front, and nothing else touches it. What an
event reports, and the number that a key is read as, are spelt out beside the list, by the bits of
the header and by the places of code and release flag in the number. **Whatever is called, and in
whatever order, keyboard and reader answer as this list does.**
-/

namespace EcLink

/-! ### The scan code tables, in full -/

namespace ScanCode

theorem toNat_masked_lt (byte : UInt8) : (byte &&& 0x7f).toNat < count := by
  rw [UInt8.toNat_and]
  exact Nat.lt_of_le_of_lt Nat.and_le_right (by decide)

theorem key?_two {code : UInt8} (hcode : code.toNat < count) :
    key? 0 code = some (base code.toNat) := by
  simp [key?, table, hcode]

theorem key?_three {code : UInt8} (hcode : code.toNat < count) :
    key? 1 code = some (extended code.toNat) := by
  simp [key?, table, hcode]

end ScanCode

/-! ### Calls and answers -/

/-- A call on a keyboard or on the reader of its keys. What refills the queue is known by the events
    that it brings. -/
inductive KeyCall
  | handle (event : Event)
  | haveKeys
  | popEvent
  | popKey
  | readKeys (buffer : List Int) (refill : List Event)

inductive KeyAnswer
  | nothing
  | flag (value : Bool)
  | key (key? : Option KeyEvent)
  | packed (packed? : Option Int)
  | read (read : KeyRead)

namespace Keyboard

def handleEach (events : List Event) (keyboard : Keyboard) : Keyboard :=
  events.foldl (fun keyboard event => (keyboard.handle event).1) keyboard

def answer (keyboard : Keyboard) : KeyCall → Option (KeyAnswer × Keyboard)
  | .handle event => some (.nothing, (keyboard.handle event).1)
  | .haveKeys => some (.flag (keyView.haveKeys keyboard), keyboard)
  | .popEvent =>
      let (key?, keyboard) := keyView.popEvent keyboard
      some (.key key?, keyboard)
  | .popKey =>
      let (packed?, keyboard) := keyView.popKey keyboard
      some (.packed packed?, keyboard)
  | .readKeys buffer refill => do
      let (read, keyboard) ←
        keyView.readKeys (fun keyboard => some (keyboard.handleEach refill)) buffer keyboard
      some (.read read, keyboard)

def answerAll : List KeyCall → Keyboard → Option (List KeyAnswer × Keyboard)
  | [], keyboard => some ([], keyboard)
  | call :: calls, keyboard => do
      let (answer, keyboard) ← keyboard.answer call
      let (answers, keyboard) ← answerAll calls keyboard
      some (answer :: answers, keyboard)

end Keyboard

/-! ### The list of keys that wait -/

/-- A press or a release, by the top bit, of the key that one table of codes has for the others. -/
def KeyEvent.ofByte (codes : Nat → UInt16) (byte : UInt8) : KeyEvent :=
  ⟨codes (byte &&& 0x7f).toNat, byte &&& 0x80 != 0⟩

/-- The key that an event reports. Bits five and six of the header are zero for an event of two
    bytes and one for an event of three, of which the last one is the scan code. -/
def Event.key? (event : Event) : Option KeyEvent :=
  match (event.header.raw >>> 5 &&& 0x03).toNat, event.payload with
  | 0, byte :: _ => some (.ofByte ScanCode.base byte)
  | 1, _ :: byte :: _ => some (.ofByte ScanCode.extended byte)
  | _, _ => none

namespace KeyFifo

/-- A key in packed form: its code, and above the sixteen bits of the code 0x80 for a release. -/
def packed (key : KeyEvent) : Int :=
  (if key.released then 0x80 else 0) * 65536 + key.code.toNat

/-- A key goes to the end if there is room, and else it is the newest one that is lost. -/
def arrive (waiting : List KeyEvent) (event : Event) : List KeyEvent :=
  match event.key? with
  | some key => if waiting.length < 256 then waiting ++ [key] else waiting
  | none => waiting

/-- As many keys as wait, or as the buffer has places, go to its front, and what was behind them
    stays. -/
def read (buffer : List Int) (refilled : Bool) (waiting : List KeyEvent) :
    KeyRead × List KeyEvent :=
  let number := min buffer.length waiting.length
  (⟨number, (waiting.take number).map packed ++ buffer.drop number, refilled⟩,
    waiting.drop number)

def answer (waiting : List KeyEvent) : KeyCall → KeyAnswer × List KeyEvent
  | .handle event => (.nothing, arrive waiting event)
  | .haveKeys => (.flag (decide (waiting ≠ [])), waiting)
  | .popEvent => (.key waiting.head?, waiting.tail)
  | .popKey => (.packed (waiting.head?.map packed), waiting.tail)
  | .readKeys buffer refill =>
      let (read, waiting) :=
        match waiting with
        | [] => read buffer true (refill.foldl arrive [])
        | key :: later => read buffer false (key :: later)
      (.read read, waiting)

def answerAll : List KeyCall → List KeyEvent → List KeyAnswer × List KeyEvent
  | [], waiting => ([], waiting)
  | call :: calls, waiting =>
      let (answer, waiting) := answer waiting call
      let (answers, waiting) := answerAll calls waiting
      (answer :: answers, waiting)

end KeyFifo

/-! ### What is spelt out beside the list -/

/-- Code and release flag share no bit, so that to join them is to add them. -/
theorem KeyEvent.packed_eq (key : KeyEvent) : key.packed = KeyFifo.packed key := by
  have hcode : key.code.toNat < 2 ^ 16 := key.code.toNat_lt
  have hjoined : ∀ state : Nat, (Int.ofNat (state <<< 16 ||| key.code.toNat) : Int) =
      state * 65536 + key.code.toNat := by
    intro state
    rw [← Nat.shiftLeft_add_eq_or_of_lt hcode, Nat.shiftLeft_eq]
    rfl
  unfold packed KeyFifo.packed
  dsimp only
  rw [hjoined]
  cases key.released <;> rfl

namespace KeyFifo

theorem read_of_empty (buffer : List Int) (refilled : Bool) :
    read buffer refilled [] = (⟨0, buffer, refilled⟩, []) := by
  simp [read]

theorem read_nowhere (refilled : Bool) (waiting : List KeyEvent) :
    read [] refilled waiting = (⟨0, [], refilled⟩, waiting) := by
  simp [read]

/-- The first key goes to the first place, and the others are read into the rest of the buffer. -/
theorem read_cons (place : Int) (places : List Int) (refilled : Bool) (key : KeyEvent)
    (later : List KeyEvent) :
    read (place :: places) refilled (key :: later) =
      (⟨(read places refilled later).1.count + 1,
        packed key :: (read places refilled later).1.buffer, refilled⟩,
        (read places refilled later).2) := by
  simp [read, Nat.succ_min_succ]

end KeyFifo

namespace Keyboard

theorem keyAt?_of_table {row : Nat} {codes : Nat → UInt16}
    (htable : ∀ {code : UInt8}, code.toNat < ScanCode.count →
      ScanCode.key? row code = some (codes code.toNat)) (payload : List UInt8) :
    keyAt? row payload = payload[row]?.map (KeyEvent.ofByte codes) := by
  unfold keyAt?
  cases payload[row]? with
  | none => rfl
  | some byte =>
      rw [Option.bind_some, htable (ScanCode.toNat_masked_lt byte), Option.map_some,
        Option.map_some, KeyEvent.ofByte, topBit_iff]

theorem keyAt?_outside (row : Nat) (payload : List UInt8) : keyAt? (row + 2) payload = none := by
  unfold keyAt?
  cases payload[row + 2]? with
  | none => rfl
  | some byte => rfl

theorem keyOf?_eq_key? (event : Event) : keyOf? event = event.key? := by
  rw [keyOf?_eq]
  unfold Event.key?
  match (event.header.raw >>> 5 &&& 0x03).toNat, event.payload with
  | 0, payload =>
      rw [keyAt?_of_table ScanCode.key?_two]
      cases payload <;> rfl
  | 1, payload =>
      rw [keyAt?_of_table ScanCode.key?_three]
      rcases payload with _ | ⟨lead, _ | ⟨byte, later⟩⟩ <;> rfl
  | row + 2, payload =>
      rw [keyAt?_outside]
      rfl

/-! ### The keyboard keeps to it -/

theorem handle_arrives (event : Event) (keyboard : Keyboard) :
    (keyboard.handle event).1.queue.events = KeyFifo.arrive keyboard.queue.events event := by
  rw [handle_events, keyOf?_eq_key?, KeyFifo.arrive]
  cases event.key? with
  | none =>
      rw [Option.toList_none, List.append_nil]
      exact List.take_of_length_le keyboard.queue.length_le
  | some key =>
      dsimp only [Option.toList_some]
      by_cases hroom : keyboard.queue.events.length < 256
      · rw [if_pos hroom]
        apply List.take_of_length_le
        rw [List.length_append]
        exact hroom
      · have hfull : keyboard.queue.events.length = keyQueueCapacity :=
          Nat.le_antisymm keyboard.queue.length_le (Nat.le_of_not_lt hroom)
        rw [if_neg hroom]
        exact List.take_left' hfull

theorem handleEach_arrives (events : List Event) (keyboard : Keyboard) :
    (keyboard.handleEach events).queue.events =
      events.foldl KeyFifo.arrive keyboard.queue.events := by
  induction events generalizing keyboard with
  | nil => rfl
  | cons event events ih =>
      rw [List.foldl_cons, ← handle_arrives]
      exact ih (keyboard.handle event).1

theorem haveKeys_eq (keyboard : Keyboard) :
    keyView.haveKeys keyboard = decide (keyboard.queue.events ≠ []) := by
  change (!keyboard.queue.events.isEmpty) = _
  cases keyboard.queue.events <;> rfl

theorem popKey_pops (keyboard : Keyboard) :
    ∃ after, keyView.popKey keyboard = (keyboard.queue.events.head?.map KeyFifo.packed, after) ∧
      after.queue.events = keyboard.queue.events.tail := by
  have hpopped : keyView.popKey keyboard =
      (keyboard.queue.events.head?.map KeyEvent.packed, (keyView.popKey keyboard).2) := rfl
  rw [funext KeyEvent.packed_eq] at hpopped
  exact ⟨_, hpopped, keyboard.queue.events_pop⟩

/-- **Popping a key for each place** reads as many keys as wait, or as there are places. -/
theorem popInto_reads (buffer : List Int) (refilled : Bool) (keyboard : Keyboard) :
    KeyFifo.read buffer refilled keyboard.queue.events =
      (⟨(keyView.popInto buffer keyboard).1, (keyView.popInto buffer keyboard).2.1, refilled⟩,
        (keyView.popInto buffer keyboard).2.2.queue.events) := by
  induction buffer generalizing keyboard with
  | nil => exact KeyFifo.read_nowhere refilled keyboard.queue.events
  | cons place places ih =>
      obtain ⟨middle, hpop, hleft⟩ := popKey_pops keyboard
      have hlater := ih middle
      rw [hleft] at hlater
      rw [KeyView.popInto, hpop]
      cases hevents : keyboard.queue.events with
      | nil =>
          rw [hevents] at hleft
          rw [KeyFifo.read_of_empty]
          exact congrArg (Prod.mk _) hleft.symm
      | cons key later =>
          rw [hevents] at hlater
          rw [KeyFifo.read_cons]
          dsimp only [List.tail_cons] at hlater
          rw [hlater]
          rfl

/-- **One call is answered from the list**, and leaves the keys that the list is left with. -/
theorem answer_eq (call : KeyCall) (keyboard : Keyboard) :
    ∃ after, keyboard.answer call =
        some ((KeyFifo.answer keyboard.queue.events call).1, after) ∧
      after.queue.events = (KeyFifo.answer keyboard.queue.events call).2 := by
  cases call with
  | handle event => exact ⟨_, rfl, handle_arrives event keyboard⟩
  | haveKeys =>
      refine ⟨keyboard, ?_, rfl⟩
      rw [answer, haveKeys_eq]
      rfl
  | popEvent => exact ⟨_, rfl, rfl⟩
  | popKey =>
      obtain ⟨after, hpop, hleft⟩ := popKey_pops keyboard
      refine ⟨after, ?_, hleft⟩
      rw [answer, hpop]
      rfl
  | readKeys buffer refill =>
      cases hevents : keyboard.queue.events with
      | nil =>
          have hdry : (!keyView.haveKeys keyboard) = true := by
            rw [haveKeys_eq, hevents]
            rfl
          -- The keys that are read are those that the refill has brought.
          have hread := popInto_reads buffer true (keyboard.handleEach refill)
          rw [handleEach_arrives, hevents] at hread
          dsimp only [KeyFifo.answer]
          rw [hread, answer, KeyView.readKeys, hdry]
          exact ⟨_, rfl, rfl⟩
      | cons key later =>
          have hkeys : (!keyView.haveKeys keyboard) = false := by
            rw [haveKeys_eq, hevents]
            rfl
          have hread := popInto_reads buffer false keyboard
          rw [hevents] at hread
          dsimp only [KeyFifo.answer]
          rw [hread, answer, KeyView.readKeys, hkeys]
          exact ⟨_, rfl, rfl⟩

theorem answerAll_eq (calls : List KeyCall) (keyboard : Keyboard) :
    ∃ after, answerAll calls keyboard =
        some ((KeyFifo.answerAll calls keyboard.queue.events).1, after) ∧
      after.queue.events = (KeyFifo.answerAll calls keyboard.queue.events).2 := by
  induction calls generalizing keyboard with
  | nil => exact ⟨keyboard, rfl, rfl⟩
  | cons call calls ih =>
      obtain ⟨middle, hanswer, hmiddle⟩ := answer_eq call keyboard
      obtain ⟨after, hanswers, hafter⟩ := ih middle
      rw [hmiddle] at hanswers hafter
      refine ⟨after, ?_, hafter⟩
      rw [answerAll, hanswer]
      change (answerAll calls middle).bind _ = _
      rw [hanswers]
      rfl

/-- **A keyboard is a bounded queue of keys.** Whatever is called on it and on its reader, from its
    making on, is answered as the list of waiting keys answers it, and what waits in the end is what
    the list holds, never more than two hundred and fifty-six keys. -/
theorem answers_as_fifo (wake : Bool) (calls : List KeyCall) :
    ∃ after, answerAll calls (fresh wake) = some ((KeyFifo.answerAll calls []).1, after) ∧
      after.queue.events = (KeyFifo.answerAll calls []).2 ∧
      (KeyFifo.answerAll calls []).2.length ≤ 256 := by
  obtain ⟨after, hanswers, hafter⟩ := answerAll_eq calls (fresh wake)
  exact ⟨after, hanswers, hafter, hafter ▸ after.queue.length_le⟩

/-- A press and the release of an extended key, which are read at once, then by way of a refill. An
    event of variable length comes between them. -/
def typing : List KeyCall :=
  [.popKey, .handle ⟨⟨0x80⟩, [0x1e]⟩, .handle ⟨⟨0xc0⟩, [1, 0x1e]⟩, .handle ⟨⟨0xa0⟩, [0xe0, 0xc8]⟩,
    .haveKeys, .readKeys [7, 7, 7] [], .haveKeys,
    .readKeys [7] [⟨⟨0x80⟩, [0x1e]⟩, ⟨⟨0xa0⟩, [0xe0, 0xc8]⟩], .popKey, .popEvent]

theorem answers_as_fifo_typing :
    ∃ after, answerAll typing (fresh true) =
        some ([.packed none, .nothing, .nothing, .nothing,
          .flag true, .read ⟨2, [30, 0x80 * 65536 + 103, 7], false⟩, .flag false,
          .read ⟨1, [30], true⟩, .packed (some (0x80 * 65536 + 103)), .key none], after) ∧
      after.queue.events = [] := by
  obtain ⟨after, hanswers, hleft, -⟩ := answers_as_fifo true typing
  exact ⟨after, hanswers, hleft⟩

end Keyboard

/-! ### First in, first out -/

def KeyCall.arrivals : KeyCall → List Event
  | .handle event => [event]
  | .readKeys _ refill => refill
  | _ => []

/-- The keys that an answer gives away, in packed form. -/
def KeyAnswer.given : KeyAnswer → List Int
  | .key key? => (key?.map KeyFifo.packed).toList
  | .packed packed? => packed?.toList
  | .read taken => taken.buffer.take taken.count
  | _ => []

namespace KeyFifo

theorem arrive_sublist (waiting : List KeyEvent) (event : Event) :
    (arrive waiting event).Sublist (waiting ++ event.key?.toList) := by
  unfold arrive
  cases event.key? with
  | none => exact List.sublist_append_left waiting []
  | some key =>
      dsimp only
      split
      · exact .refl _
      · exact List.sublist_append_left waiting [key]

theorem foldl_arrive_sublist (events : List Event) (waiting : List KeyEvent) :
    (events.foldl arrive waiting).Sublist (waiting ++ events.filterMap Event.key?) := by
  induction events generalizing waiting with
  | nil => exact List.sublist_append_left waiting []
  | cons event events ih =>
      have hfirst := (arrive_sublist waiting event).append_right (events.filterMap Event.key?)
      rw [filterMap_cons_toList, ← List.append_assoc]
      exact (ih (arrive waiting event)).trans hfirst

theorem given_read (buffer : List Int) (refilled : Bool) (waiting : List KeyEvent) :
    (KeyAnswer.read (read buffer refilled waiting).1).given ++
        (read buffer refilled waiting).2.map KeyFifo.packed =
      waiting.map KeyFifo.packed := by
  have hnumber : ((waiting.take (min buffer.length waiting.length)).map
      KeyFifo.packed).length = min buffer.length waiting.length := by
    simp
  dsimp only [KeyAnswer.given, read]
  rw [List.take_left' hnumber, ← List.map_append, List.take_append_drop]

theorem answer_sublist (call : KeyCall) (waiting : List KeyEvent) :
    ((answer waiting call).1.given ++ (answer waiting call).2.map KeyFifo.packed).Sublist
      ((waiting ++ call.arrivals.filterMap Event.key?).map KeyFifo.packed) := by
  have hwaiting : (waiting.map KeyFifo.packed).Sublist
      ((waiting ++ call.arrivals.filterMap Event.key?).map KeyFifo.packed) :=
    (List.sublist_append_left waiting _).map KeyFifo.packed
  cases call with
  | handle event => exact (foldl_arrive_sublist [event] waiting).map KeyFifo.packed
  | haveKeys => exact hwaiting
  | popEvent =>
      cases waiting with
      | nil => exact hwaiting
      | cons key later => exact hwaiting
  | popKey =>
      cases waiting with
      | nil => exact hwaiting
      | cons key later => exact hwaiting
  | readKeys buffer refill =>
      cases waiting with
      | nil =>
          have hbrought := (foldl_arrive_sublist refill []).map KeyFifo.packed
          rw [← given_read buffer true] at hbrought
          exact hbrought
      | cons key later =>
          rw [← given_read buffer false] at hwaiting
          exact hwaiting

theorem answerAll_sublist (calls : List KeyCall) (waiting : List KeyEvent) :
    ((answerAll calls waiting).1.flatMap KeyAnswer.given ++
        (answerAll calls waiting).2.map KeyFifo.packed).Sublist
      ((waiting ++ (calls.flatMap KeyCall.arrivals).filterMap Event.key?).map
        KeyFifo.packed) := by
  induction calls generalizing waiting with
  | nil =>
      rw [List.flatMap_nil, List.filterMap_nil, List.append_nil]
      exact .refl _
  | cons call calls ih =>
      have hfirst := answer_sublist call waiting
      have hlater := ih (answer waiting call).2
      rw [List.map_append] at hlater
      rw [List.flatMap_cons, List.filterMap_append, ← List.append_assoc, List.map_append]
      change List.Sublist (((answer waiting call).1.given ++ _) ++ _) _
      rw [List.append_assoc]
      refine (hlater.append_left _).trans ?_
      rw [← List.append_assoc]
      exact hfirst.append_right _

end KeyFifo

/-- **Keys come out in the order in which they came in, and none of them twice.** What was popped
    and read, and then what still waits, are keys that events reported, with some of them left
    out. -/
theorem Keyboard.keys_in_order {wake : Bool} {calls : List KeyCall} {answers : List KeyAnswer}
    {after : Keyboard} (hdone : answerAll calls (fresh wake) = some (answers, after)) :
    (answers.flatMap KeyAnswer.given ++ after.queue.events.map KeyFifo.packed).Sublist
      (((calls.flatMap KeyCall.arrivals).filterMap Event.key?).map KeyFifo.packed) := by
  obtain ⟨last, hanswers, hevents⟩ := answerAll_eq calls (fresh wake)
  rw [hdone] at hanswers
  cases hanswers
  rw [hevents]
  exact KeyFifo.answerAll_sublist calls []

end EcLink
