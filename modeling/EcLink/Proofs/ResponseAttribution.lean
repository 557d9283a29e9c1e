import EcLink.Proofs.Deliveries
import Mathlib.Data.List.Basic

/-!
# Whose response is taken

A request that is answered by a response leaves exactly that response to be taken. One that is
answered by an event leaves what an earlier attempt of the same request let in: the place for the
response is emptied when the request begins, and not again when an attempt does. So a response that
the controller pushed before it had read the request can be taken as the reply to it, and
`Channel.takeResponse_of_answered` says exactly when.
-/

namespace EcLink

/-- The responses that came in where a request was to be read. -/
def strayResponses (made : List Try) : List Frame :=
  responses (made.filterMap fun once => once.first.frame?)

/-- What there is to be taken after a request that this frame answered, if the frame alone counts:
    the frame if it is a response, and nothing if it is an event. -/
def Frame.asReply? (frame : Frame) : Option Frame :=
  if frame.header.isEvent then none else some frame

theorem Try.delivered?_of_failed {once : Try} (hfailed : once.reply? = none) :
    once.delivered? = once.first.frame? := by
  rcases once with ⟨parked, ⟨first, hother⟩ | second⟩
  · rfl
  · simpa [Try.reply?, Try.delivered?, Try.first, Outcome.frame?] using hfailed

theorem responses_delivered_of_failed {failed : List Try}
    (hfailed : ∀ once ∈ failed, once.reply? = none) :
    responses (failed.filterMap Try.delivered?) = strayResponses failed := by
  unfold strayResponses
  congr 1
  apply List.filterMap_congr
  intro once honce
  exact Try.delivered?_of_failed (hfailed once honce)

namespace Channel

variable {σ κ : Type} [Console κ] [Board σ]

/-- **What is taken after a request that was answered.** It is the answer if that is a response. If
    it is an event, it is the last response that came in where an earlier attempt was to be read,
    and nothing only if no response did. -/
theorem takeResponse_of_answered {polls : Nat} {payload : Payload} {channel after : Channel σ κ}
    (hdone : channel.request polls payload.bytes = some (.ok (), after)) :
    ∃ failed last frame polled,
      channel.attemptsMade polls payload = some (failed ++ [last], polled) ∧
      (∀ once ∈ failed, once.reply? = none) ∧
      last.first = .sent ∧ last.second? = some (.received frame) ∧
      after.takeResponse.1 =
        (if frame.header.isEvent then (strayResponses failed).getLast? else some frame) ∧
      (after.takeResponse.1 = frame.asReply? ↔
        frame.header.isEvent = false ∨ strayResponses failed = []) := by
  obtain ⟨made, polled, hmade, hok, htook⟩ := request_took hdone
  obtain ⟨once, honce, reply, hreply⟩ := (conclude_ok_iff _ _ _).mp hok.symm
  rcases tries_shape hmade with ⟨failed, last, frame, rfl, -, hframe, hfailed⟩ | ⟨-, hnone⟩
  · obtain ⟨hsent, hsecond⟩ := Try.reply?_eq_some_iff.mp hframe
    -- The answering frame came last, so an earlier response is held only if this one is none.
    have htaken : after.takeResponse.1 =
        (if frame.header.isEvent then (strayResponses failed).getLast? else some frame) := by
      have hlast : [last].filterMap Try.delivered? = [frame] := by
        simp [Try.delivered?_of_reply? hframe]
      have hresponse := htook.response
      rw [List.filterMap_append, hlast, responses_append, responses_delivered_of_failed hfailed,
        responses_singleton] at hresponse
      change after.response = _
      rw [hresponse]
      split <;> simp
    refine ⟨failed, last, frame, polled, hmade, hfailed, hsent, hsecond, htaken, ?_⟩
    rw [htaken, Frame.asReply?]
    cases frame.header.isEvent <;> simp
  · rw [hnone once honce] at hreply
    cases hreply

def strayResponseFirst : List ScriptStep :=
  MasterScript.writes MasterScript.usualAddress noopResponse.bytes ++
    MasterScript.exchange MasterScript.usualAddress 2 lidEvent.bytes

/-- An event answers the request here, and yet there is a response to be taken. -/
theorem takeResponse_ne_asReply? :
    ∃ made last after, (scripted {} strayResponseFirst).attemptsMade 20 .noop = some (made, last) ∧
      made.getLast?.bind Try.reply? = some lidEvent ∧ lidEvent.header.isEvent = true ∧
      (scripted {} strayResponseFirst).request 20 Payload.noop.bytes = some (.ok (), after) ∧
      after.takeResponse.1 = some noopResponse ∧ after.takeResponse.1 ≠ lidEvent.asReply? := by
  have hmade : ((scripted {} strayResponseFirst).attemptsMade 20 .noop).map
      (fun record => record.1.getLast?.bind Try.reply?) = some (some lidEvent) := by decide
  have hrun : ((scripted {} strayResponseFirst).request 20 Payload.noop.bytes).map
      (fun done => (done.1.toOption, done.2.takeResponse.1)) =
        some (some (), some noopResponse) := by decide
  obtain ⟨⟨made, last⟩, hmade, hreply⟩ := Option.map_eq_some_iff.mp hmade
  obtain ⟨⟨result, after⟩, hdone, hend⟩ := Option.map_eq_some_iff.mp hrun
  obtain ⟨hresult, htaken⟩ := Prod.mk.inj hend
  cases result with
  | error error => cases hresult
  | ok value =>
      refine ⟨made, last, after, hmade, hreply, by decide, hdone, htaken, ?_⟩
      rw [htaken]
      decide

theorem takeResponse_stray :
    ∃ after, (scripted {} strayResponseFirst).request 20 Payload.noop.bytes =
        some (.ok (), after) ∧
      after.takeResponse.1 = some noopResponse ∧
      ∃ failed last frame polled,
        (scripted {} strayResponseFirst).attemptsMade 20 .noop = some (failed ++ [last], polled) ∧
        (∀ once ∈ failed, once.reply? = none) ∧
        last.first = .sent ∧ last.second? = some (.received frame) ∧
        after.takeResponse.1 =
          (if frame.header.isEvent then (strayResponses failed).getLast? else some frame) ∧
        (after.takeResponse.1 = frame.asReply? ↔
          frame.header.isEvent = false ∨ strayResponses failed = []) := by
  have hrun : ((scripted {} strayResponseFirst).request 20 Payload.noop.bytes).map
      (fun done => (done.1.toOption, done.2.takeResponse.1)) =
        some (some (), some noopResponse) := by decide
  obtain ⟨⟨result, after⟩, hdone, hend⟩ := Option.map_eq_some_iff.mp hrun
  obtain ⟨hresult, htaken⟩ := Prod.mk.inj hend
  cases result with
  | error error => cases hresult
  | ok value => exact ⟨after, hdone, htaken, takeResponse_of_answered hdone⟩

end Channel

end EcLink
