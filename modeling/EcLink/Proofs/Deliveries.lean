import EcLink.Proofs.Attempts

/-!
# Where delivered frames go

A channel keeps two things from the frames that its transactions deliver: the latest response, and
the parked events. `Channel.Took` says so for a list of frames, and every operation that carries
out transactions takes the frames that they delivered, in order, and nothing else.
-/

namespace EcLink

theorem topBit_iff (byte : UInt8) : (byte &&& 0x80 != 0) = decide (0x80 ≤ byte) := by
  have hall : ∀ bits : BitVec 8, ((⟨bits⟩ : UInt8) &&& 0x80 != 0) =
      decide (0x80 ≤ (⟨bits⟩ : UInt8)) := by decide
  exact hall byte.toBitVec

theorem Header.isEvent_iff (header : Header) : header.isEvent = true ↔ 0x80 ≤ header.raw := by
  rw [isEvent, topBit_iff, decide_eq_true_iff]

theorem Frame.event?_of_event {frame : Frame} (hevent : frame.header.isEvent = true) :
    frame.event? = some (Event.ofFrame frame) := if_pos hevent

theorem Frame.event?_of_response {frame : Frame} (hresponse : frame.header.isEvent = false) :
    frame.event? = none := by
  simp [Frame.event?, hresponse]

theorem filterMap_cons_toList {α β : Type} (choose : α → Option β) (first : α) (later : List α) :
    (first :: later).filterMap choose = (choose first).toList ++ later.filterMap choose := by
  rw [List.filterMap_cons]
  cases choose first <;> rfl

def responses (frames : List Frame) : List Frame :=
  frames.filter fun frame => !frame.header.isEvent

def events (frames : List Frame) : List Frame :=
  frames.filter fun frame => frame.header.isEvent

theorem events_append (earlier later : List Frame) :
    events (earlier ++ later) = events earlier ++ events later := List.filter_append ..

theorem responses_append (earlier later : List Frame) :
    responses (earlier ++ later) = responses earlier ++ responses later := List.filter_append ..

theorem responses_singleton (frame : Frame) :
    responses [frame] = if frame.header.isEvent then [] else [frame] := by
  cases hevent : frame.header.isEvent <;> simp [responses, hevent]

theorem events_singleton (frame : Frame) :
    events [frame] = if frame.header.isEvent then [frame] else [] := by
  cases hevent : frame.header.isEvent <;> simp [events, hevent]

def Pending.parkAll (frames : List Frame) (pending : Pending) : Pending :=
  frames.foldl (fun parked frame => parked.park frame) pending

namespace Channel

variable {σ κ : Type}

/-- A channel has taken in these frames: the last response is held, and the events are parked. -/
structure Took (frames : List Frame) (before after : Channel σ κ) : Prop where
  response : after.response = (responses frames).getLast?.or before.response
  pending : after.pending = before.pending.parkAll (events frames)

theorem Took.nothing {before after : Channel σ κ} (hresponse : after.response = before.response)
    (hpending : after.pending = before.pending) : Took [] before after :=
  ⟨hresponse, hpending⟩

theorem Took.append {first second third : Channel σ κ} {earlier later : List Frame}
    (hearlier : Took earlier first second) (hlater : Took later second third) :
    Took (earlier ++ later) first third := by
  constructor
  · rw [hlater.response, hearlier.response, responses_append, List.getLast?_append,
      Option.or_assoc]
  · rw [hlater.pending, hearlier.pending, events_append, Pending.parkAll, Pending.parkAll,
      Pending.parkAll, List.foldl_append]

variable [Console κ]

theorem accept_of_response {frame : Frame} (hresponse : frame.header.isEvent = false)
    (channel : Channel σ κ) : channel.accept frame = { channel with response := some frame } := by
  unfold accept
  rw [Frame.event?_of_response hresponse]

theorem accept_of_event {frame : Frame} (hevent : frame.header.isEvent = true)
    (channel : Channel σ κ) :
    (channel.accept frame).response = channel.response ∧
      (channel.accept frame).pending = channel.pending.park frame := by
  unfold accept
  rw [Frame.event?_of_event hevent]
  dsimp only
  split <;> exact ⟨rfl, rfl⟩

theorem accept_took (frame : Frame) (channel : Channel σ κ) :
    Took [frame] channel (channel.accept frame) := by
  by_cases hevent : frame.header.isEvent = true
  · obtain ⟨hresponse, hpending⟩ := accept_of_event hevent channel
    constructor
    · rw [hresponse, responses_singleton, if_pos hevent]
      rfl
    · rw [hpending, events_singleton, if_pos hevent]
      rfl
  · rw [accept_of_response (by simpa using hevent)]
    constructor
    · rw [responses_singleton, if_neg hevent]
      rfl
    · rw [events_singleton, if_neg hevent]
      rfl

theorem keep_took (outcome : Outcome) (channel : Channel σ κ) :
    Took outcome.frame?.toList channel (channel.keep outcome) := by
  unfold keep
  cases outcome.frame? with
  | none => exact Took.nothing rfl rfl
  | some frame => exact accept_took frame channel

theorem sayResult_took (number : Nat) (once : Try) (channel : Channel σ κ) :
    Took [] channel (sayResult number once channel) := by
  unfold sayResult
  split <;> exact Took.nothing rfl rfl

variable [Board σ]

theorem receive_took {polls : Nat} {mode : Mode} {channel after : Channel σ κ} {outcome : Outcome}
    (hdone : channel.receive polls mode = some (outcome, after)) :
    Took outcome.frame?.toList channel after := by
  rw [receive_eq] at hdone
  obtain ⟨⟨outcome', link⟩, -, heq⟩ := Option.map_eq_some_iff.mp hdone
  cases heq
  have hkept := keep_took outcome { channel with link }
  exact ⟨hkept.response, hkept.pending⟩

theorem tryOnce_took {polls : Nat} {payload : Payload} {channel after : Channel σ κ} {once : Try}
    (honce : channel.tryOnce polls payload = some (once, after)) :
    once.parked = channel.pending.frames ∧ Took once.delivered?.toList channel after := by
  have hoffer : Took [] channel (channel.offer payload) := Took.nothing rfl rfl
  unfold tryOnce at honce
  obtain ⟨⟨first, middle⟩, hfirst, honce⟩ := Option.bind_eq_some_iff.mp honce
  have hfirst' := hoffer.append (receive_took hfirst)
  dsimp only at honce
  split at honce
  case isTrue hsent =>
    obtain ⟨⟨second, last⟩, hsecond, hend⟩ := Option.bind_eq_some_iff.mp honce
    cases hend
    subst hsent
    exact ⟨rfl, hfirst'.append (receive_took hsecond)⟩
  case isFalse hother =>
    cases honce
    exact ⟨rfl, hfirst'⟩

theorem tries_took {polls left number : Nat} {payload : Payload} {channel after : Channel σ κ}
    {made : List Try} (hmade : tries polls payload left number channel = some (made, after)) :
    Took (made.filterMap Try.delivered?) channel after := by
  induction left generalizing number channel made with
  | zero =>
      cases hmade
      exact Took.nothing rfl rfl
  | succ left ih =>
      obtain ⟨once, middle, honce, hrest⟩ := tries_succ hmade
      obtain ⟨-, htook⟩ := tryOnce_took honce
      rcases hrest with ⟨frame, hframe, rfl, rfl⟩ | ⟨more, hnone, rfl, hmore⟩
      · simpa [Try.delivered?_of_reply? hframe] using htook
      · have hlater := (sayResult_took number once middle).append (ih hmore)
        have hall := htook.append hlater
        rw [List.nil_append] at hall
        cases hdelivered : once.delivered? <;> simpa [hdelivered] using hall

/-- A request holds the last response that came in during its attempts, if one did, and parks the
    events. -/
theorem request_took {polls : Nat} {payload : Payload} {channel after : Channel σ κ}
    {result : Except RequestError Unit}
    (hdone : channel.request polls payload.bytes = some (result, after)) :
    ∃ made last, channel.attemptsMade polls payload = some (made, last) ∧
      result = (conclude channel.link.diagnostics.signalFailures.count made last).1 ∧
      Took (made.filterMap Try.delivered?) { channel with response := none } after := by
  rw [request_eq] at hdone
  obtain ⟨⟨made, last⟩, hmade, hend⟩ := Option.map_eq_some_iff.mp hdone
  have htook := tries_took hmade
  refine ⟨made, last, hmade, by rw [hend], ?_⟩
  have hafter : after = (conclude channel.link.diagnostics.signalFailures.count made last).2 := by
    rw [hend]
  rw [hafter]
  unfold conclude
  split <;> exact ⟨htook.response, htook.pending⟩

end Channel

end EcLink
