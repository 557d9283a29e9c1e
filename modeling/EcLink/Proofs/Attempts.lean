import EcLink.Channel
import EcLink.ScriptedBus

/-!
# The attempts of a request, one by one

A request reports how often it failed, but not what happened on the way. `Channel.attemptsMade`
carries out the same attempts and writes down how the transactions of each one ended. The request
itself is then this record with its end read off (`Channel.request_eq`), so what is true of a
request can be said and proved of a list.
-/

namespace EcLink

/-! ### Records -/

/-- How the transactions of one attempt ended. -/
inductive Course
  | unsent (first : Outcome) (hother : first ≠ .sent)
  | sent (second : Outcome)
  deriving DecidableEq, Repr

structure Try where
  /-- The events that were parked when the attempt began. -/
  parked : List Frame
  course : Course
  deriving DecidableEq, Repr

namespace Try

def first (once : Try) : Outcome :=
  match once.course with
  | .unsent first _ => first
  | .sent _ => .sent

def second? (once : Try) : Option Outcome :=
  match once.course with
  | .unsent _ _ => none
  | .sent second => some second

/-- The frame that the attempt delivered, be it the reply or not. -/
def delivered? (once : Try) : Option Frame :=
  match once.course with
  | .unsent first _ => first.frame?
  | .sent second => second.frame?

def result (once : Try) : Attempt :=
  match once.course with
  | .unsent first _ => .notSent first
  | .sent (.received _) => .answered
  | .sent second => .unanswered second

def failedIn? (once : Try) : Option Leg :=
  match once.result with
  | .answered => none
  | .notSent _ => some .send
  | .unanswered _ => some .receive

def reply? (once : Try) : Option Frame :=
  match once.course with
  | .unsent _ _ => none
  | .sent second => second.frame?

theorem failedIn?_eq_none_iff (once : Try) :
    once.failedIn? = none ↔ ∃ frame, once.reply? = some frame := by
  rcases once with ⟨parked, _ | second⟩
  · simp [failedIn?, result, reply?]
  · cases second <;> simp [failedIn?, result, reply?, Outcome.frame?]

theorem reply?_eq_some_iff {once : Try} {frame : Frame} :
    once.reply? = some frame ↔
      once.first = .sent ∧ once.second? = some (.received frame) := by
  rcases once with ⟨parked, ⟨first, hother⟩ | second⟩
  · simp [reply?, second?]
  · cases second <;> simp [reply?, first, second?, Outcome.frame?]

theorem delivered?_of_reply? {once : Try} {frame : Frame} (hreply : once.reply? = some frame) :
    once.delivered? = some frame := by
  rcases once with ⟨parked, _ | second⟩
  · cases hreply
  · exact hreply

end Try

/-- Count the failures of attempts; nothing if one of them was answered. -/
def Setbacks.addAll (setbacks : Setbacks) : List Try → Option Setbacks
  | [] => some setbacks
  | once :: more => once.failedIn?.bind fun leg => (setbacks.add leg).addAll more

theorem Setbacks.addAll_eq_none_iff (setbacks : Setbacks) {made : List Try} :
    setbacks.addAll made = Option.none ↔
      ∃ once ∈ made, ∃ frame, once.reply? = some frame := by
  induction made generalizing setbacks with
  | nil => simp [addAll]
  | cons once made ih =>
      have hanswered := once.failedIn?_eq_none_iff
      cases hleg : once.failedIn? with
      | none =>
          rw [hleg] at hanswered
          have hreply := hanswered.mp rfl
          simp [addAll, hleg, hreply]
      | some leg =>
          have hnone : ¬ ∃ frame, once.reply? = some frame := by
            intro hreply
            rw [hanswered.mpr hreply] at hleg
            cases hleg
          simp [addAll, hleg, ih, hnone]

namespace Channel

variable {σ κ : Type} [Console κ]

def keep (outcome : Outcome) (channel : Channel σ κ) : Channel σ κ :=
  match outcome.frame? with
  | some frame => channel.accept frame
  | none => channel

/-- The end of a request after these attempts: answered, or failed with the setbacks added up. -/
def conclude (failuresBefore : Nat) (made : List Try) (last : Channel σ κ) :
    Except RequestError Unit × Channel σ κ :=
  let after := { last with link := last.link.unload }
  match Setbacks.none.addAll made with
  | none => (.ok (), after)
  | some setbacks =>
      let failures := last.link.diagnostics.signalFailures.count - failuresBefore
      let error := setbacks.error (.ofNat failures)
      (.error error, after.tell (.requestFailed error))

theorem conclude_pending (failuresBefore : Nat) (made : List Try) (last : Channel σ κ) :
    (conclude failuresBefore made last).2.pending = last.pending := by
  unfold conclude
  split <;> rfl

theorem conclude_board (failuresBefore : Nat) (made : List Try) (last : Channel σ κ) :
    (conclude failuresBefore made last).2.link.board = last.link.board ∧
      (conclude failuresBefore made last).2.link.transaction.outbox = .empty := by
  unfold conclude
  split
  · exact ⟨rfl, rfl⟩
  · exact ⟨rfl, rfl⟩

theorem conclude_ok_iff (failuresBefore : Nat) (made : List Try) (last : Channel σ κ) :
    (conclude failuresBefore made last).1 = .ok () ↔
      ∃ once ∈ made, ∃ frame, once.reply? = some frame := by
  rw [← Setbacks.none.addAll_eq_none_iff]
  unfold conclude
  cases Setbacks.none.addAll made <;> simp

variable [Board σ]

theorem receive_eq (polls : Nat) (mode : Mode) (channel : Channel σ κ) :
    channel.receive polls mode =
      (channel.link.transact polls mode).map fun (outcome, link) =>
        (outcome, { channel with link }.keep outcome) := by
  unfold receive
  cases channel.link.transact polls mode with
  | none => rfl
  | some done =>
      rcases done with ⟨outcome, link⟩
      simp only [Option.bind_eq_bind, Option.bind_some, Option.map_some, keep]
      cases outcome.frame? <;> rfl

/-! ### Making attempts -/

def tryOnce (polls : Nat) (payload : Payload) (channel : Channel σ κ) :
    Option (Try × Channel σ κ) := do
  let (first, after) ← (channel.offer payload).receive polls .blocking
  if hsent : first = .sent then
    let (second, after) ← after.receive polls .blocking
    some (⟨channel.pending.frames, .sent second⟩, after)
  else
    some (⟨channel.pending.frames, .unsent first hsent⟩, after)

def sayResult (number : Nat) (once : Try) (channel : Channel σ κ) : Channel σ κ :=
  match once.result with
  | .answered => channel
  | .notSent outcome => channel.tell (.attemptNotSent number outcome)
  | .unanswered outcome => channel.tell (.attemptUnanswered number outcome)

/-- Make attempts until one is answered or none is left, and write them all down. -/
def tries (polls : Nat) (payload : Payload) :
    (left number : Nat) → Channel σ κ → Option (List Try × Channel σ κ)
  | 0, _, channel => some ([], channel)
  | left + 1, number, channel => do
      let (once, channel) ← channel.tryOnce polls payload
      if once.failedIn?.isNone then
        some ([once], channel)
      else
        let (more, channel) ← tries polls payload left (number + 1) (sayResult number once channel)
        some (once :: more, channel)

def attemptsMade (polls : Nat) (payload : Payload) (channel : Channel σ κ) :
    Option (List Try × Channel σ κ) :=
  tries polls payload channel.link.config.maxAttempts.toNat 1 { channel with response := none }

theorem attempt_eq (polls : Nat) (payload : Payload) (channel : Channel σ κ) :
    channel.attempt polls payload =
      (channel.tryOnce polls payload).map fun (once, after) => (once.result, after) := by
  unfold attempt tryOnce
  cases (channel.offer payload).receive polls .blocking with
  | none => rfl
  | some done =>
      rcases done with ⟨first, after⟩
      cases first with
      | sent =>
          simp only [Option.bind_eq_bind, Option.bind_some, dite_true]
          cases after.receive polls .blocking with
          | none => rfl
          | some done => rcases done with ⟨_ | _, _⟩ <;> rfl
      | _ => rfl

theorem attempts_eq (polls : Nat) (payload : Payload) (left number : Nat) (setbacks : Setbacks)
    (channel : Channel σ κ) :
    attempts polls payload left number setbacks channel =
      (tries polls payload left number channel).map fun (made, after) =>
        (setbacks.addAll made, after) := by
  induction left generalizing number setbacks channel with
  | zero => rfl
  | succ left ih =>
      rw [attempts, attempt_eq, tries]
      cases channel.tryOnce polls payload with
      | none => rfl
      | some done =>
          rcases done with ⟨once, after⟩
          simp only [Option.map_some, Option.bind_eq_bind, Option.bind_some, sayResult, ih]
          cases hresult : once.result with
          | answered => simp [Setbacks.addAll, Try.failedIn?, hresult]
          | notSent outcome =>
              cases hrest : tries polls payload left (number + 1)
                (after.tell (.attemptNotSent number outcome)) with
              | none => simp [Try.failedIn?, hresult, hrest]
              | some rest => simp [Setbacks.addAll, Try.failedIn?, hresult, hrest]
          | unanswered outcome =>
              cases hrest : tries polls payload left (number + 1)
                (after.tell (.attemptUnanswered number outcome)) with
              | none => simp [Try.failedIn?, hresult, hrest]
              | some rest => simp [Setbacks.addAll, Try.failedIn?, hresult, hrest]

/-- **A request is its attempts with the end read off.** -/
theorem request_eq (polls : Nat) (payload : Payload) (channel : Channel σ κ) :
    channel.request polls payload.bytes =
      (channel.attemptsMade polls payload).map fun record =>
        conclude channel.link.diagnostics.signalFailures.count record.1 record.2 := by
  have hpayload : Payload.ofBytes? payload.bytes = some payload :=
    Payload.ofBytes?_eq_some_iff.mpr rfl
  rw [request, hpayload]
  simp only [exchange, attempts_eq]
  change Option.bind (Option.map _ (channel.attemptsMade polls payload)) _ = _
  cases channel.attemptsMade polls payload with
  | none => rfl
  | some record =>
      simp only [Option.map_some, Option.bind_some, conclude]
      cases Setbacks.none.addAll record.1 <;> rfl

theorem request_of_invalid (polls : Nat) {bytes : List UInt8}
    (hinvalid : Payload.ofBytes? bytes = none) (channel : Channel σ κ) :
    channel.request polls bytes = some (.error (.invalidLength bytes.length), channel) := by
  rw [request, hinvalid]

/-! ### What a record of attempts looks like -/

/-- The first of several attempts is the only one if it is answered, and the others follow if it
    is not. -/
theorem tries_succ {polls left number : Nat} {payload : Payload} {channel after : Channel σ κ}
    {made : List Try} (hmade : tries polls payload (left + 1) number channel = some (made, after)) :
    ∃ once middle, channel.tryOnce polls payload = some (once, middle) ∧
      ((∃ frame, once.reply? = some frame ∧ made = [once] ∧ after = middle) ∨
        (∃ more, once.reply? = none ∧ made = once :: more ∧
          tries polls payload left (number + 1) (sayResult number once middle) =
            some (more, after))) := by
  rw [tries] at hmade
  obtain ⟨⟨once, middle⟩, honce, hmade⟩ := Option.bind_eq_some_iff.mp hmade
  refine ⟨once, middle, honce, ?_⟩
  dsimp only at hmade
  split at hmade
  case isTrue hanswered =>
    cases hmade
    obtain ⟨frame, hframe⟩ := once.failedIn?_eq_none_iff.mp (by simpa using hanswered)
    exact .inl ⟨frame, hframe, rfl, rfl⟩
  case isFalse hfailed =>
    obtain ⟨⟨more, final⟩, hmore, hend⟩ := Option.bind_eq_some_iff.mp hmade
    cases hend
    refine .inr ⟨more, ?_, rfl, hmore⟩
    cases hreply : once.reply? with
    | none => rfl
    | some frame => simp [once.failedIn?_eq_none_iff.mpr ⟨frame, hreply⟩] at hfailed

theorem tries_shape {polls left number : Nat} {payload : Payload} {channel after : Channel σ κ}
    {made : List Try} (hmade : tries polls payload left number channel = some (made, after)) :
    (∃ failed last frame, made = failed ++ [last] ∧ made.length ≤ left ∧
      last.reply? = some frame ∧ ∀ once ∈ failed, once.reply? = none) ∨
    (made.length = left ∧ ∀ once ∈ made, once.reply? = none) := by
  induction left generalizing number channel made with
  | zero =>
      cases hmade
      exact .inr ⟨rfl, by simp⟩
  | succ left ih =>
      obtain ⟨once, middle, -, ⟨frame, hframe, rfl, rfl⟩ | ⟨more, hnone, rfl, hmore⟩⟩ :=
        tries_succ hmade
      · exact .inl ⟨[], once, frame, rfl, by simp, hframe, by simp⟩
      · rcases ih hmore with ⟨failed, last, frame, rfl, hlength, hframe, hall⟩ | ⟨hlength, hall⟩
        · exact .inl ⟨once :: failed, last, frame, rfl, by simpa using hlength, hframe,
            by simpa [hnone] using hall⟩
        · exact .inr ⟨by simp [hlength], by simpa [hnone] using hall⟩

theorem tries_length {polls left number : Nat} {payload : Payload} {channel after : Channel σ κ}
    {made : List Try} (hmade : tries polls payload left number channel = some (made, after)) :
    made.length ≤ left := by
  rcases tries_shape hmade with ⟨-, -, -, -, hlength, -, -⟩ | ⟨hlength, -⟩
  · exact hlength
  · exact Nat.le_of_eq hlength

/-! ### Scripted channels -/

/-- A channel on which nothing has happened, to a controller that follows a script and then falls
    silent. -/
def scripted (config : Config) (steps : List ScriptStep) : Channel ScriptedBoard Silent :=
  .ofLink (.fresh (.atTime { ScriptedBus.idle .quiet 0 with steps } 0) ⟨⟩ config)

end Channel

def lidEvent : Frame := ⟨[0x85, 0x02], by decide, by decide⟩

def noopResponse : Frame := ⟨[0x07, 0x02], by decide, by decide⟩

/-- The controller pushes an event before it reads a request of two bytes and answers it. -/
def strayEventFirst : List ScriptStep :=
  MasterScript.writes MasterScript.usualAddress lidEvent.bytes ++
    MasterScript.exchange MasterScript.usualAddress 2 noopResponse.bytes

end EcLink
