import EcLink.Keyboard
import EcLink.Proofs.EventRounds

/-!
# From the wire to the reader of keys

`wireKey?` says of the bytes of one write which key they report, if they report one: from the bits
of the header and the place of the scan code alone, with no word on how a frame comes in. Whatever
else the controller writes in between, and wherever rounds of event polling begin and end, **the
reader finds exactly these keys, as many as there is room for**, the first ones first.
-/

namespace EcLink

/-! ### What the wire says -/

/-- The key whose scan code lies at this offset, which is also the row of its table. -/
def keyAt? (row : Nat) (payload : List UInt8) : Option KeyEvent :=
  payload[row]?.bind fun byte =>
    (ScanCode.key? row (byte &&& 0x7f)).map fun code => ⟨code, 0x80 ≤ byte⟩

/-- The key that the bytes of one write report to the keyboard with this message type. The size
    class is the row; there are only two, for two bytes and for three. -/
def wireKey? (messageType : UInt8) : List UInt8 → Option KeyEvent
  | [] => none
  | header :: payload =>
      if (1 ≤ payload.length ∧ payload.length < maxFrameLength) ∧ 0x80 ≤ header ∧
          header &&& 0x0f = messageType then
        keyAt? (header >>> 5 &&& 0x03).toNat payload
      else
        none

theorem Header.tableRow?_eq (header : Header) :
    header.sizeClass.tableRow? =
      if (header.raw >>> 5 &&& 0x03).toNat < 2 then some (header.raw >>> 5 &&& 0x03).toNat
      else none := by
  have hall : ∀ bits : BitVec 8, (Header.sizeClass ⟨⟨bits⟩⟩).tableRow? =
      if ((⟨bits⟩ : UInt8) >>> 5 &&& 0x03).toNat < 2 then
        some ((⟨bits⟩ : UInt8) >>> 5 &&& 0x03).toNat
      else none := by decide
  exact hall header.raw.toBitVec

namespace Keyboard

/-- The key that an event reports, if it reports one. -/
def keyOf? (event : Event) : Option KeyEvent :=
  match keyOf event with
  | .ok key => key
  | .error _ => none

theorem keyOf?_eq (event : Event) :
    keyOf? event = keyAt? (event.header.raw >>> 5 &&& 0x03).toNat event.payload := by
  unfold keyOf? keyOf keyAt?
  rw [Header.tableRow?_eq]
  generalize (event.header.raw >>> 5 &&& 0x03).toNat = row
  by_cases hrow : row < 2
  · rw [if_pos hrow]
    dsimp only
    cases event.payload[row]? with
    | none => rfl
    | some byte =>
        simp only [releaseBit, scanCodeMask, topBit_iff]
        rfl
  · have houtside : ∀ code, ScanCode.key? row code = none := by
      intro code
      apply Option.not_isSome_iff_eq_none.mp
      rw [ScanCode.key?_isSome_iff]
      exact fun hboth => hrow hboth.1
    rw [if_neg hrow]
    cases event.payload[row]? with
    | none => rfl
    | some byte =>
        rw [Option.bind_some, houtside]
        rfl

/-! ### What the keyboard queues -/

theorem push_events (key : KeyEvent) (keyboard : Keyboard) :
    (keyboard.push key).1.queue.events =
      (keyboard.queue.events ++ [key]).take keyQueueCapacity := by
  unfold push
  cases hpushed : keyboard.queue.push? key with
  | some queue =>
      have hevents := KeyQueue.events_push? hpushed
      rw [List.take_of_length_le (hevents ▸ queue.length_le)]
      exact hevents
  | none =>
      have hfull := (KeyQueue.push?_eq_none_iff key keyboard.queue).mp hpushed
      exact (List.take_left' hfull).symm

theorem handle_events (event : Event) (keyboard : Keyboard) :
    (keyboard.handle event).1.queue.events =
      (keyboard.queue.events ++ (keyOf? event).toList).take keyQueueCapacity := by
  have hkept : keyboard.queue.events =
      (keyboard.queue.events ++ []).take keyQueueCapacity := by
    rw [List.append_nil, List.take_of_length_le keyboard.queue.length_le]
  unfold handle keyOf?
  cases keyOf event with
  | error complaint => exact hkept
  | ok key =>
      cases key with
      | none => exact hkept
      | some key => exact push_events key keyboard

theorem take_append_take {α : Type} (number : Nat) (first second : List α) :
    (first.take number ++ second).take number = (first ++ second).take number := by
  rw [List.take_append, List.take_append, List.take_take, Nat.min_self, List.length_take]
  congr 2
  omega

/-- **Keys are queued in order, up to the capacity of the queue**, whatever comes between them. -/
theorem handleAll_events (calls : List (Unit × Event)) (keyboard : Keyboard) :
    (handleAll calls keyboard).1.queue.events =
      (keyboard.queue.events ++ calls.filterMap fun call => keyOf? call.2).take
        keyQueueCapacity := by
  induction calls generalizing keyboard with
  | nil =>
      rw [List.filterMap_nil, List.append_nil]
      exact (List.take_of_length_le keyboard.queue.length_le).symm
  | cons call calls ih =>
      have hlater := ih (keyboard.handle call.2).1
      rw [handle_events, take_append_take, List.append_assoc] at hlater
      rw [filterMap_cons_toList]
      exact hlater

end Keyboard

/-- **A write is worth to the keyboard what its bytes say.** -/
theorem wireKey?_eq {directory : Directory Unit} {messageType : UInt8}
    (howner : ∀ asked, directory.owner? asked = if asked = messageType then some () else none)
    (bytes : List UInt8) :
    ((writeOutcome bytes).frame?.bind directory.route).bind (fun call => Keyboard.keyOf? call.2) =
      wireKey? messageType bytes := by
  cases bytes with
  | nil => rfl
  | cons header payload =>
      by_cases hfits : 1 ≤ payload.length ∧ payload.length < maxFrameLength
      · obtain ⟨frame, hframe⟩ : ∃ frame : Frame, frame.bytes = header :: payload :=
          ⟨⟨header :: payload, Nat.succ_pos _, hfits.2⟩, rfl⟩
        have hbuilt := Frame.ofBytes?_eq_some_iff.mpr hframe
        rw [writeOutcome_of_fits hbuilt (Nat.succ_le_succ hfits.1)]
        obtain ⟨hheader, hpayload⟩ := List.cons.inj (frame.bytes_eq.symm.trans hframe)
        change (directory.route frame).bind _ = _
        by_cases hevent : 0x80 ≤ header
        · rw [← hheader, ← Header.isEvent_iff] at hevent
          rw [Directory.route, Frame.event?_of_event hevent]
          change Option.bind (Option.bind (directory.owner? frame.header.messageType) _) _ = _
          rw [Header.isEvent_iff, hheader] at hevent
          rw [howner, Header.messageType, hheader, wireKey?]
          by_cases hours : header &&& 0x0f = messageType
          · rw [if_pos hours, if_pos ⟨hfits, hevent, hours⟩, ← hheader, ← hpayload]
            exact Keyboard.keyOf?_eq (Event.ofFrame frame)
          · rw [if_neg hours, if_neg fun hall => hours hall.2.2]
            rfl
        · have hresponse : frame.header.isEvent = false := by
            rw [← Bool.not_eq_true, Header.isEvent_iff, hheader]
            exact hevent
          rw [wireKey?, if_neg fun hall => hevent hall.2.1, Directory.route,
            Frame.event?_of_response hresponse]
          rfl
      · have hcut : writeOutcome (header :: payload) = .cutShort := by
          rw [writeOutcome, dif_neg]
          rw [List.length_cons]
          omega
        rw [hcut, wireKey?, if_neg fun hall => hfits hall.1]
        rfl

/-! ### What the reader finds -/

/-- Popping keys until there are none: these come out, and this is left. -/
inductive KeyView.Empties {ρ : Type} (view : KeyView ρ) : ρ → List KeyEvent → ρ → Prop
  | empty {world after : ρ} (hpop : view.popEvent world = (none, after)) :
      Empties view world [] after
  | key {world middle after : ρ} {key : KeyEvent} {keys : List KeyEvent}
      (hpop : view.popEvent world = (some key, middle)) (hlater : Empties view middle keys after) :
      Empties view world (key :: keys) after

theorem Keyboard.empties {keyboard : Keyboard} {keys : List KeyEvent}
    (hkeys : keyboard.queue.events = keys) :
    ∃ after, keyView.Empties keyboard keys after ∧ after.queue.events = [] := by
  induction keys generalizing keyboard with
  | nil =>
      refine ⟨(keyView.popEvent keyboard).2, .empty ?_, ?_⟩
      · apply Prod.ext
        · change keyboard.queue.events.head? = none
          rw [hkeys]
          rfl
        · rfl
      · change keyboard.queue.events.tail = []
        rw [hkeys]
        rfl
  | cons key keys ih =>
      have htail : (keyView.popEvent keyboard).2.queue.events = keys := by
        change keyboard.queue.events.tail = keys
        rw [hkeys]
        rfl
      obtain ⟨after, hempties, hnone⟩ := ih htail
      refine ⟨after, .key ?_ hempties, hnone⟩
      apply Prod.ext
      · change keyboard.queue.events.head? = some key
        rw [hkeys]
        rfl
      · rfl

namespace Host

variable {κ : Type} [Console κ]

/-- **Keys get from the wire to the reader.** A new host with a keyboard polls for events in rounds
    while the controller writes what it likes. Once the rounds suffice for all of it, the reader
    finds the keys that the bytes report, in order and each once, as many as the queue holds. -/
theorem keys_reach_reader {board : ScriptedBoard} {config : Config} {lists : List (List UInt8)}
    {messageType : UInt8} {polls rounds : Nat} (console : κ) (wake : Bool)
    (htype : messageType.toNat < messageTypeCount)
    (hsettles : config.settleMillis ≤ config.timeoutMillis)
    (htick : (ScriptedBoard.bus board).tick = 0)
    (hidle : (ScriptedBoard.bus board).tail.isReady = false)
    (hscript : (ScriptedBoard.bus board).steps =
      lists.flatMap (MasterScript.writes config.address))
    (hpolls : (ScriptedBoard.bus board).steps.length < polls)
    (hrounds : lists.length ≤ rounds * config.maxEventReads.toNat) :
    ∃ host, (fresh board console config (Keyboard.fresh wake)).register messageType () =
        (.ok (), host) ∧
      ∃ after rest, performAll (perform polls) (List.replicate rounds .pollEvents) host =
          some (List.replicate rounds .nothing, after) ∧
        after.channel.link.script = [] ∧
        Keyboard.keyView.Empties after.devices
          ((lists.filterMap (wireKey? messageType)).take keyQueueCapacity) rest := by
  obtain ⟨directory, hdone⟩ := (Directory.register_isOk_iff .empty messageType ()).mpr
    ⟨htype, Directory.owner?_empty messageType⟩
  have howner : ∀ asked, directory.owner? asked =
      if asked = messageType then some () else none := by
    intro asked
    rw [Directory.owner?_register hdone, Directory.owner?_empty]
  let host : Host ScriptedBoard κ Keyboard Unit :=
    ⟨.ofLink (.fresh board console config), directory, Keyboard.fresh wake⟩
  have hlistens : host.channel.link.Listens polls lists :=
    ⟨⟨htick, hsettles⟩, hscript, hidle, hpolls⟩
  obtain ⟨after, hperformed, hears⟩ := pollEvents_hears rounds hlistens rfl
  have hsuffice : lists.length ≤ rounds * host.config.maxEventReads.toNat := hrounds
  rw [List.drop_of_length_le hsuffice, List.take_of_length_le hsuffice] at hears
  have hworth : ∀ bytes, ((writeOutcome bytes).frame?.bind host.directory.route).bind
      (fun call => Keyboard.keyOf? call.2) = wireKey? messageType bytes := wireKey?_eq howner
  have hkeys : after.devices.queue.events =
      (lists.filterMap (wireKey? messageType)).take keyQueueCapacity := by
    rw [hears.devices, Keyboard.handleAll_events, callsOf, List.filterMap_filterMap]
    simp only [hworth]
    rfl
  obtain ⟨rest, hempties, -⟩ := Keyboard.empties hkeys
  refine ⟨host, ?_, after, rest, hperformed, hears.listens.script, hempties⟩
  simp only [register, fresh, hdone]
  rfl

/-- Two keys, in a frame of two bytes and in one of three, among writes that are no keys. -/
def keysAmongOthers : List (List UInt8) :=
  [[0x80, 0x1e], [0x85, 0x02], [0x80], [0xa0, 0xe0, 0xc8], [0x07, 0x02],
    0x80 :: List.replicate 34 0x1e, []]

def keysAmongOthersBoard : ScriptedBoard :=
  .atTime { ScriptedBus.idle .quiet 0 with
    steps := keysAmongOthers.flatMap (MasterScript.writes MasterScript.usualAddress) } 0

theorem keys_reach_reader_two :
    keysAmongOthers.filterMap (wireKey? 0) = [⟨0x1e, false⟩, ⟨Key.up, true⟩] ∧
    ∃ host, (fresh keysAmongOthersBoard (⟨⟩ : Silent) { maxEventReads := 3 }
        (Keyboard.fresh false)).register 0 () = (.ok (), host) ∧
      ∃ after rest, performAll (perform 80) (List.replicate 3 .pollEvents) host =
          some (List.replicate 3 .nothing, after) ∧
        after.channel.link.script = [] ∧
        Keyboard.keyView.Empties after.devices
          ((keysAmongOthers.filterMap (wireKey? 0)).take keyQueueCapacity) rest := by
  constructor
  · decide
  · have hrounds : keysAmongOthers.length ≤ 3 * 3 := by decide
    exact keys_reach_reader (⟨⟩ : Silent) false (by decide) (by decide) rfl rfl rfl (by decide)
      hrounds

end Host

end EcLink
