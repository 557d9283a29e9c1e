import EcLink.Operation
import EcLink.Proofs.Attempts

/-!
# What is refused for its length

The number of bytes is looked at twice: when a request begins, and when an attempt queues them. A
refusal at the first place costs nothing, because nothing was done yet. One at the second would come
too late: the response of an earlier request is gone by then, and in a later attempt the line was
pulled and the controller polled. **It never comes, because the two checks agree on every list of
bytes**, so a request may carry a payload from one to the other and leave the second check out.
`Channel.checkedRequest` keeps it, with the way out that it calls for, and is the same request.
-/

namespace EcLink

namespace Link

variable {σ κ : Type}

theorem queue_of_payload (payload : Payload) (link : Link σ κ) :
    link.queue payload.bytes = .ok (link.load payload) := by
  rw [queue, Payload.ofBytes?_eq_some_iff.mpr rfl]

theorem queue_eq_error_iff {bytes : List UInt8} (link : Link σ κ) {error : RequestError} :
    link.queue bytes = .error error ↔
      error = .invalidLength bytes.length ∧
        (bytes.length = 0 ∨ maxPayloadLength < bytes.length) := by
  rw [← Payload.ofBytes?_eq_none_iff, queue]
  cases Payload.ofBytes? bytes with
  | none =>
      constructor
      · intro hrefused
        cases hrefused
        exact ⟨rfl, rfl⟩
      · rintro ⟨rfl, -⟩
        rfl
  | some payload =>
      constructor
      · exact nofun
      · rintro ⟨-, hnone⟩
        cases hnone

/-- A link that refuses bytes is as it was. -/
theorem perform_queue_refused_iff [Board σ] [Console κ] {polls : Nat} {bytes : List UInt8}
    {link after : Link σ κ} {error : RequestError} :
    link.perform polls (.queue bytes) = some (.answered (.error error), after) ↔
      error = .invalidLength bytes.length ∧
        (bytes.length = 0 ∨ maxPayloadLength < bytes.length) ∧ after = link := by
  rw [← and_assoc, ← queue_eq_error_iff link, perform]
  cases link.queue bytes with
  | ok queued =>
      constructor
      · exact nofun
      · rintro ⟨hrefused, -⟩
        cases hrefused
  | error refusal =>
      constructor
      · intro hdone
        cases hdone
        exact ⟨rfl, rfl⟩
      · rintro ⟨hrefused, rfl⟩
        cases hrefused
        rfl

end Link

theorem Setbacks.error_ne_invalidLength (setbacks : Setbacks) (signal : Tally 255) (length : Nat) :
    setbacks.error signal ≠ .invalidLength length := by
  unfold error
  cases setbacks.last with
  | send => exact nofun
  | receive => exact nofun

namespace Channel

/-! ### A request that checks twice -/

/-- The check of a request, which looks at the number of bytes. -/
def isRequestable (bytes : List UInt8) : Bool :=
  !(bytes.isEmpty || maxPayloadLength < bytes.length)

theorem isRequestable_iff {bytes : List UInt8} :
    isRequestable bytes = true ↔ ∃ payload : Payload, payload.bytes = bytes := by
  have hchecked : isRequestable bytes = true ↔ Payload.ofBytes? bytes ≠ none := by
    rw [Ne, Payload.ofBytes?_eq_none_iff, List.length_eq_zero_iff]
    simp [isRequestable]
  rw [hchecked, Option.ne_none_iff_exists']
  simp only [Payload.ofBytes?_eq_some_iff]

variable {σ κ : Type} [Board σ] [Console κ]

/-- What an attempt does once its bytes are queued and the line is pulled. -/
def goThrough (polls : Nat) (channel : Channel σ κ) : Option (Attempt × Channel σ κ) := do
  let (first, channel) ← channel.receive polls .blocking
  match first with
  | .sent =>
      let (second, channel) ← channel.receive polls .blocking
      match second with
      | .received _ => some (.answered, channel)
      | _ => some (.unanswered second, channel)
  | _ => some (.notSent first, channel)

/-- Attempts that queue the bytes as they are, so that every one of them checks their number again.
    A refusal ends them all. -/
def checkedAttempts (polls : Nat) (bytes : List UInt8) :
    (left number : Nat) → Setbacks → Channel σ κ →
      Option (Except RequestError (Option Setbacks) × Channel σ κ)
  | 0, _, setbacks, channel => some (.ok (some setbacks), channel)
  | left + 1, number, setbacks, channel =>
      match channel.link.queue bytes with
      | .error error => some (.error error, channel)
      | .ok link => do
          let (result, channel) ← { channel with link := link.assertRequest.2 }.goThrough polls
          match result with
          | .answered => some (.ok none, channel)
          | .notSent outcome =>
              checkedAttempts polls bytes left (number + 1) (setbacks.add .send)
                (channel.tell (.attemptNotSent number outcome))
          | .unanswered outcome =>
              checkedAttempts polls bytes left (number + 1) (setbacks.add .receive)
                (channel.tell (.attemptUnanswered number outcome))

/-- A request that checks the number of bytes when it begins and in every attempt. -/
def checkedRequest (polls : Nat) (bytes : List UInt8) (channel : Channel σ κ) :
    Option (Except RequestError Unit × Channel σ κ) :=
  if isRequestable bytes then do
    let failuresBefore := channel.link.diagnostics.signalFailures.count
    let (ended, channel) ← checkedAttempts polls bytes channel.link.config.maxAttempts.toNat 1
      .none { channel with response := none }
    match ended with
    | .error error => some (.error error, channel)
    | .ok setbacks =>
        let channel := { channel with link := channel.link.unload }
        match setbacks with
        | none => some (.ok (), channel)
        | some setbacks =>
            let failures := channel.link.diagnostics.signalFailures.count - failuresBefore
            let error := setbacks.error (.ofNat failures)
            some (.error error, channel.tell (.requestFailed error))
  else
    some (.error (.invalidLength bytes.length), channel)

/-- **No attempt refuses a payload**, so the attempts that check it are those that do not. -/
theorem checkedAttempts_eq (polls : Nat) (payload : Payload) (left number : Nat)
    (setbacks : Setbacks) (channel : Channel σ κ) :
    checkedAttempts polls payload.bytes left number setbacks channel =
      (attempts polls payload left number setbacks channel).map (Prod.map .ok id) := by
  -- Every attempt has another link, but what a link refuses depends on the bytes alone.
  induction left generalizing number setbacks channel with
  | zero => rfl
  | succ left ih =>
      have hattempt : channel.attempt polls payload =
          (channel.offer payload).goThrough polls := rfl
      have hoffer : ({ channel with link := (channel.link.load payload).assertRequest.2 } :
          Channel σ κ) = channel.offer payload := rfl
      rw [checkedAttempts, Link.queue_of_payload, attempts, hattempt]
      dsimp only
      rw [hoffer]
      cases (channel.offer payload).goThrough polls with
      | none => rfl
      | some done =>
          rcases done with ⟨result, middle⟩
          cases result with
          | answered => rfl
          | notSent outcome => exact ih _ _ _
          | unanswered outcome => exact ih _ _ _

/-- **A request need not check twice.** -/
theorem checkedRequest_eq (polls : Nat) (bytes : List UInt8) (channel : Channel σ κ) :
    channel.checkedRequest polls bytes = channel.request polls bytes := by
  cases hpayload : Payload.ofBytes? bytes with
  | none =>
      have hrefused : ¬ isRequestable bytes = true := by
        rintro hfits
        obtain ⟨payload, hbytes⟩ := isRequestable_iff.mp hfits
        rw [Payload.ofBytes?_eq_some_iff.mpr hbytes] at hpayload
        cases hpayload
      rw [request_of_invalid polls hpayload, checkedRequest, if_neg hrefused]
  | some payload =>
      obtain rfl := Payload.ofBytes?_eq_some_iff.mp hpayload
      have hfits : isRequestable payload.bytes = true := isRequestable_iff.mpr ⟨payload, rfl⟩
      rw [checkedRequest, if_pos hfits, checkedAttempts_eq, request, hpayload]
      dsimp only [exchange]
      cases attempts polls payload channel.link.config.maxAttempts.toNat 1 .none
        { channel with response := none } with
      | none => rfl
      | some done => rfl

/-! ### Refusals -/

/-- **A request that is refused for its length has not begun.** -/
theorem request_refused_iff {polls length : Nat} {bytes : List UInt8}
    {channel after : Channel σ κ} :
    channel.request polls bytes = some (.error (.invalidLength length), after) ↔
      length = bytes.length ∧ (bytes.length = 0 ∨ maxPayloadLength < bytes.length) ∧
        after = channel := by
  cases hpayload : Payload.ofBytes? bytes with
  | none =>
      have hunfit := Payload.ofBytes?_eq_none_iff.mp hpayload
      rw [request_of_invalid polls hpayload]
      constructor
      · intro hdone
        cases hdone
        exact ⟨rfl, hunfit, rfl⟩
      · rintro ⟨rfl, -, rfl⟩
        rfl
  | some payload =>
      obtain rfl := Payload.ofBytes?_eq_some_iff.mp hpayload
      constructor
      · intro hdone
        rw [request_eq] at hdone
        obtain ⟨⟨made, last⟩, -, hend⟩ := Option.map_eq_some_iff.mp hdone
        unfold conclude at hend
        dsimp only at hend
        split at hend
        · cases hend
        · obtain ⟨herror, -⟩ := Prod.mk.inj hend
          exact (Setbacks.error_ne_invalidLength _ _ _ (Except.error.inj herror)).elim
      · rintro ⟨-, hunfit, -⟩
        rw [← Payload.ofBytes?_eq_none_iff, hpayload] at hunfit
        cases hunfit

/-- **A list of bytes is refused for its length, or goes all the way.** On every board, a link that
    is to queue bytes and a channel that is to send them in a request refuse them just if there are
    none or more than thirty-two, and then they name that number and are what they were. The two
    checks agree; checking once more in every attempt makes no difference to a request, and none of
    its attempts refuses what the request did not. -/
theorem refused_iff_unfit (polls : Nat) (bytes : List UInt8) :
    (∀ (link after : Link σ κ) (error : RequestError),
      link.perform polls (.queue bytes) = some (.answered (.error error), after) ↔
        error = .invalidLength bytes.length ∧
          (bytes.length = 0 ∨ maxPayloadLength < bytes.length) ∧ after = link) ∧
    (∀ (channel after : Channel σ κ) (length : Nat),
      channel.request polls bytes = some (.error (.invalidLength length), after) ↔
        length = bytes.length ∧ (bytes.length = 0 ∨ maxPayloadLength < bytes.length) ∧
          after = channel) ∧
    (∀ link : Link σ κ, isRequestable bytes = true ↔ ∃ queued, link.queue bytes = .ok queued) ∧
    (∀ channel : Channel σ κ,
      channel.checkedRequest polls bytes = channel.request polls bytes) ∧
    (isRequestable bytes = true →
      ∀ (left number : Nat) (setbacks : Setbacks) (channel after : Channel σ κ)
        (error : RequestError),
        checkedAttempts polls bytes left number setbacks channel ≠ some (.error error, after)) := by
  refine ⟨fun _ _ _ => Link.perform_queue_refused_iff, fun _ _ _ => request_refused_iff, ?_,
    checkedRequest_eq polls bytes, ?_⟩
  · intro link
    rw [isRequestable_iff]
    constructor
    · rintro ⟨payload, rfl⟩
      exact ⟨_, link.queue_of_payload payload⟩
    · rintro ⟨queued, hqueued⟩
      cases hpayload : Payload.ofBytes? bytes with
      | none =>
          rw [Link.queue, hpayload] at hqueued
          cases hqueued
      | some payload => exact ⟨payload, Payload.ofBytes?_eq_some_iff.mp hpayload⟩
  · intro hfits left number setbacks channel after error hrefused
    obtain ⟨payload, rfl⟩ := isRequestable_iff.mp hfits
    rw [checkedAttempts_eq] at hrefused
    obtain ⟨ended, -, hend⟩ := Option.map_eq_some_iff.mp hrefused
    cases hend

/-- Two bytes go all the way, in the second attempt. A request of thirty-three is refused, and so is
    the attempt to queue nothing in the place of the two. -/
theorem refused_iff_unfit_noop :
    isRequestable Payload.noop.bytes = true ∧
      (∀ after error, checkedAttempts 9 Payload.noop.bytes 2 1 .none (scripted {} strayEventFirst) ≠
        some (.error error, after)) ∧
      ((scripted {} strayEventFirst).checkedRequest 9 Payload.noop.bytes).map (·.1.isOk) =
        some true ∧
      (scripted {} strayEventFirst).request 9 (List.replicate 33 0) =
        some (.error (.invalidLength 33), scripted {} strayEventFirst) ∧
      ((scripted {} []).link.load .noop).perform 9 (.queue []) =
        some (.answered (.error (.invalidLength 0)), (scripted {} []).link.load .noop) := by
  have hfits : isRequestable Payload.noop.bytes = true := by decide
  obtain ⟨-, -, -, hrequest, hattempts⟩ :=
    refused_iff_unfit (σ := ScriptedBoard) (κ := Silent) 9 Payload.noop.bytes
  obtain ⟨-, hlong, -⟩ := refused_iff_unfit (σ := ScriptedBoard) (κ := Silent) 9
    (List.replicate 33 0)
  obtain ⟨hnothing, -⟩ := refused_iff_unfit (σ := ScriptedBoard) (κ := Silent) 9 []
  refine ⟨hfits, fun after error => hattempts hfits 2 1 .none _ after error, ?_, ?_, ?_⟩
  · rw [hrequest]
    decide
  · exact (hlong _ _ _).mpr ⟨rfl, .inr (by decide), rfl⟩
  · exact (hnothing _ _ _).mpr ⟨rfl, .inl rfl, rfl⟩

end Channel

end EcLink
