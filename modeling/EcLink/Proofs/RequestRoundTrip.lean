import EcLink.Proofs.EventConservation
import EcLink.Proofs.PromptTraffic
import EcLink.Proofs.ResponseAttribution

/-!
# A request comes through

The controller can spoil an attempt in three ways: it pushes an event instead of reading, it breaks
its read off, or it reads everything and then answers with less than a frame. Each of them leaves
something else behind: an event that waits, a payload that is half out, no payload at all. **None of
it gets into the next attempt**, and the first exchange that is carried out to the end is the answer
to the request, if an attempt is left for it.
-/

namespace EcLink

/-- What the controller does in an attempt of sending a payload that comes to nothing. -/
inductive Mishap (payload : Payload)
  | pushed (event : Frame) (hevent : event.header.isEvent = true)
      (hlong : 2 ≤ event.bytes.length)
  | unanswered (bytes : List UInt8) (hshort : bytes.length < 2)
  | brokenOff (count : Nat) (hearly : count < payload.bytes.length)

namespace Mishap

variable {payload : Payload}

def script (address : UInt8) : Mishap payload → List ScriptStep
  | .pushed event _ _ => MasterScript.writes address event.bytes
  | .unanswered bytes _ => MasterScript.exchange address payload.bytes.length bytes
  | .brokenOff count _ => MasterScript.reads address count

/-- The bytes that the controller gets to see, the size of the payload first. -/
def handedOut : Mishap payload → List UInt8
  | .pushed _ _ _ => []
  | .unanswered _ _ => .ofNat payload.bytes.length :: payload.bytes
  | .brokenOff count _ => .ofNat payload.bytes.length :: payload.bytes.take count

def event? : Mishap payload → Option Frame
  | .pushed event _ _ => some event
  | .unanswered _ _ => none
  | .brokenOff _ _ => none

theorem isEvent_of_event? {mishap : Mishap payload} {event : Frame}
    (hevent : mishap.event? = some event) : event.header.isEvent = true := by
  cases mishap with
  | pushed frame hisEvent hlong =>
      cases hevent
      exact hisEvent
  | unanswered bytes hshort => cases hevent
  | brokenOff count hearly => cases hevent

theorem events_of_mishaps (mishaps : List (Mishap payload)) :
    events (mishaps.filterMap event?) = mishaps.filterMap event? ∧
      responses (mishaps.filterMap event?) = [] := by
  have hall : ∀ frame ∈ mishaps.filterMap event?, frame.header.isEvent = true := by
    intro frame hframe
    obtain ⟨mishap, -, hevent⟩ := List.mem_filterMap.mp hframe
    exact isEvent_of_event? hevent
  constructor
  · exact List.filter_eq_self.mpr hall
  · apply List.filter_eq_nil_iff.mpr
    intro frame hframe
    simp [hall frame hframe]

end Mishap

namespace Channel

variable {κ : Type} [Console κ] {payload : Payload} {polls : Nat}
  {channel : Channel ScriptedBoard κ} {rest : List ScriptStep}

/-! ### One attempt -/

/-- The next transaction of the script is all there is to an attempt in which it does not read the
    payload. -/
theorem tryOnce_of_unread (transaction : MasterTransaction) (hprompt : channel.link.Prompt)
    (hscript : channel.link.script = transaction.script channel.link.config.address ++ rest)
    (hfits : transaction.Fits (some payload))
    (hother : transaction.outcome (some payload) ≠ .sent)
    (hpolls : (transaction.script channel.link.config.address).length ≤ polls) :
    ∃ after, channel.tryOnce polls payload =
        some (⟨channel.pending.frames, .unsent (transaction.outcome (some payload)) hother⟩,
          after) ∧
      Link.Advances (transaction.script channel.link.config.address)
        (transaction.handedOut (some payload)) channel.link after.link := by
  obtain ⟨hoffered, hqueued⟩ := offer_advances payload channel
  have hnext := hoffered.script_eq hscript
  rw [← hoffered.config] at hnext hpolls ⊢
  rw [← hqueued] at hfits
  obtain ⟨after, hreceive, -, -, hadvances⟩ :=
    receive_next transaction (hoffered.prompt hprompt) hnext hfits hpolls .blocking
  rw [hqueued] at hreceive hadvances
  refine ⟨after, ?_, hoffered.trans hadvances⟩
  rw [tryOnce, hreceive]
  exact dif_neg hother

/-- If the controller reads the payload, then what it writes next is the end of the attempt. -/
theorem tryOnce_of_exchange {bytes : List UInt8} (hprompt : channel.link.Prompt)
    (hscript : channel.link.script =
      MasterScript.exchange channel.link.config.address payload.bytes.length bytes ++ rest)
    (hpolls : (MasterScript.exchange channel.link.config.address payload.bytes.length
      bytes).length ≤ polls) :
    ∃ after, channel.tryOnce polls payload =
        some (⟨channel.pending.frames, .sent (writeOutcome bytes)⟩, after) ∧
      Link.Advances
        (MasterScript.exchange channel.link.config.address payload.bytes.length bytes)
        (.ofNat payload.bytes.length :: payload.bytes) channel.link after.link := by
  obtain ⟨hoffered, hqueued⟩ := offer_advances payload channel
  rw [MasterScript.exchange, List.length_append] at hpolls
  rw [MasterScript.exchange, List.append_assoc] at hscript
  have hnext := hoffered.script_eq hscript
  rw [← hoffered.config] at hnext hpolls ⊢
  have hfits : (MasterTransaction.reads payload.bytes.length).Fits
      (channel.offer payload).link.queued := by
    rw [hqueued]
    exact Nat.le_refl _
  obtain ⟨middle, hfirst, hleft, -, hread⟩ := receive_next (.reads payload.bytes.length)
    (hoffered.prompt hprompt) hnext hfits (Nat.le_trans (Nat.le_add_right _ _) hpolls) .blocking
  rw [hqueued] at hfirst hread
  have hsent : (MasterTransaction.reads payload.bytes.length).outcome (some payload) = .sent :=
    if_pos rfl
  have hwhole : (MasterTransaction.reads payload.bytes.length).handedOut (some payload) =
      .ofNat payload.bytes.length :: payload.bytes := by
    rw [MasterTransaction.handedOut, offered, Option.getD_some, List.take_length]
  rw [hsent] at hfirst
  rw [hwhole] at hread
  rw [← hread.config] at hleft hpolls
  obtain ⟨after, hsecond, -, -, hwritten⟩ := receive_next (.writes bytes)
    (hread.prompt (hoffered.prompt hprompt)) hleft trivial
    (Nat.le_trans (Nat.le_add_left _ _) hpolls) .blocking
  refine ⟨after, ?_, ?_⟩
  · rw [tryOnce, hfirst]
    simp only [Option.bind_eq_bind, Option.bind_some, dite_true, hsecond]
    rfl
  · rw [hread.config] at hwritten
    have hall := hoffered.trans (hread.trans hwritten)
    rwa [List.nil_append, List.nil_append, MasterTransaction.handedOut, List.append_nil] at hall

theorem writeOutcome_of_short {bytes : List UInt8} (hshort : bytes.length < 2) :
    writeOutcome bytes = .cutShort := by
  rw [writeOutcome, dif_neg (by omega)]

/-- **A mishap fails one attempt**, takes no more than its own steps, and delivers its event. -/
theorem tryOnce_of_mishap (mishap : Mishap payload) (hprompt : channel.link.Prompt)
    (hscript : channel.link.script = mishap.script channel.link.config.address ++ rest)
    (hpolls : (mishap.script channel.link.config.address).length ≤ polls) :
    ∃ once after, channel.tryOnce polls payload = some (once, after) ∧
      once.reply? = none ∧ once.delivered? = mishap.event? ∧
      Link.Advances (mishap.script channel.link.config.address) mishap.handedOut
        channel.link after.link := by
  cases mishap with
  | pushed event hevent hlong =>
      have houtcome : (MasterTransaction.writes event.bytes).outcome (some payload) =
          .received event :=
        writeOutcome_of_fits (Frame.ofBytes?_eq_some_iff.mpr rfl) hlong
      have hother : (MasterTransaction.writes event.bytes).outcome (some payload) ≠ .sent := by
        rw [houtcome]
        exact Outcome.noConfusion
      obtain ⟨after, honce, hadvances⟩ := tryOnce_of_unread
        (.writes event.bytes) hprompt hscript trivial hother hpolls
      refine ⟨_, after, honce, rfl, ?_, hadvances⟩
      simp only [Try.delivered?, houtcome]
      rfl
  | unanswered bytes hshort =>
      obtain ⟨after, honce, hadvances⟩ := tryOnce_of_exchange hprompt hscript hpolls
      rw [writeOutcome_of_short hshort] at honce
      exact ⟨_, after, honce, rfl, rfl, hadvances⟩
  | brokenOff count hearly =>
      have houtcome : (MasterTransaction.reads count).outcome (some payload) =
          .failed .protocolViolation := if_neg (Nat.ne_of_lt hearly)
      have hother : (MasterTransaction.reads count).outcome (some payload) ≠ .sent := by
        rw [houtcome]
        exact Outcome.noConfusion
      obtain ⟨after, honce, hadvances⟩ := tryOnce_of_unread
        (.reads count) hprompt hscript (Nat.le_of_lt hearly) hother hpolls
      refine ⟨_, after, honce, rfl, ?_, hadvances⟩
      simp only [Try.delivered?, houtcome]
      rfl

/-! ### All attempts -/

theorem sayResult_advances (number : Nat) (once : Try) {before : Link ScriptedBoard κ}
    {steps : List ScriptStep} {bytes : List UInt8}
    (hadvances : Link.Advances steps bytes before channel.link) :
    Link.Advances steps bytes before (sayResult number once channel).link := by
  unfold sayResult
  split
  · exact hadvances
  · exact hadvances.tell _
  · exact hadvances.tell _

/-- The record of a request that came through: an attempt for each mishap, and one more. -/
structure CameThrough (mishaps : List (Mishap payload)) (reply : Frame) (made : List Try)
    (before after : Link ScriptedBoard κ) : Prop where
  length : made.length = mishaps.length + 1
  answered : ∃ once ∈ made, once.reply? = some reply
  delivered : made.filterMap Try.delivered? = mishaps.filterMap Mishap.event? ++ [reply]
  advances : Link.Advances
    (mishaps.flatMap (Mishap.script before.config.address) ++
      MasterScript.exchange before.config.address payload.bytes.length reply.bytes)
    (mishaps.flatMap Mishap.handedOut ++ .ofNat payload.bytes.length :: payload.bytes) before after

theorem tries_come_through {mishaps : List (Mishap payload)} {reply : Frame} {left : Nat}
    (number : Nat) (hprompt : channel.link.Prompt) (hlong : 2 ≤ reply.bytes.length)
    (hfew : mishaps.length < left)
    (hscript : channel.link.script =
      mishaps.flatMap (Mishap.script channel.link.config.address) ++
        (MasterScript.exchange channel.link.config.address payload.bytes.length reply.bytes ++
          rest))
    (hpolls : channel.link.script.length ≤ polls) :
    ∃ made after, tries polls payload left number channel = some (made, after) ∧
      CameThrough mishaps reply made channel.link after.link := by
  induction mishaps generalizing left number channel with
  | nil =>
      obtain ⟨left, rfl⟩ : ∃ fewer, left = fewer + 1 := Nat.exists_eq_add_one.mpr hfew
      rw [List.flatMap_nil, List.nil_append] at hscript
      rw [hscript, List.length_append] at hpolls
      obtain ⟨after, honce, hadvances⟩ :=
        tryOnce_of_exchange hprompt hscript (Nat.le_trans (Nat.le_add_right _ _) hpolls)
      rw [writeOutcome_of_fits (Frame.ofBytes?_eq_some_iff.mpr rfl) hlong] at honce
      refine ⟨[⟨channel.pending.frames, .sent (.received reply)⟩], after, ?_, rfl, ?_, rfl,
        hadvances⟩
      · rw [tries, honce]
        rfl
      · exact ⟨_, List.mem_singleton_self _, rfl⟩
  | cons mishap mishaps ih =>
      obtain ⟨left, rfl⟩ : ∃ fewer, left = fewer + 1 :=
        Nat.exists_eq_add_one.mpr (Nat.zero_lt_of_lt hfew)
      rw [List.flatMap_cons, List.append_assoc] at hscript
      have hbound := hpolls
      rw [hscript, List.length_append] at hbound
      obtain ⟨once, middle, honce, hfailed, hdelivered, hadvances⟩ :=
        tryOnce_of_mishap mishap hprompt hscript (Nat.le_trans (Nat.le_add_right _ _) hbound)
      have hsaid := sayResult_advances number once hadvances
      have hleft := hsaid.script_eq hscript
      have hfewer : mishaps.length < left := Nat.lt_of_succ_lt_succ hfew
      obtain ⟨more, after, hmore, hthrough⟩ := ih (number + 1) (hsaid.prompt hprompt) hfewer
        (by rw [hsaid.config]; exact hleft)
        (by rw [hleft]; exact Nat.le_trans (Nat.le_add_left _ _) hbound)
      obtain ⟨hlength, ⟨last, hlast, hreply⟩, hframes, hothers⟩ := hthrough
      obtain ⟨leg, hleg⟩ := Try.exists_leg hfailed
      refine ⟨once :: more, after, ?_, ?_, ⟨last, List.mem_cons_of_mem _ hlast, hreply⟩, ?_, ?_⟩
      · rw [tries, honce]
        simp [hleg, hmore]
      · rw [List.length_cons, hlength, List.length_cons]
      · rw [List.filterMap_cons, List.filterMap_cons, hdelivered, hframes]
        cases mishap.event? <;> rfl
      · rw [hsaid.config] at hothers
        rw [List.flatMap_cons, List.flatMap_cons, List.append_assoc, List.append_assoc]
        exact hsaid.trans hothers

/-- **A request comes through any mishaps that leave it an attempt.** It makes one attempt more than
    there are mishaps and takes the whole script; each attempt starts from the front of the payload.
    The reply can be taken if it is a response, and the events wait, but for those that eight later
    ones pushed out. -/
theorem request_comes_through {mishaps : List (Mishap payload)} {reply : Frame}
    (hprompt : channel.link.Prompt) (hempty : channel.pending = .empty)
    (hlong : 2 ≤ reply.bytes.length)
    (hfew : mishaps.length < channel.link.config.maxAttempts.toNat)
    (hscript : channel.link.script =
      mishaps.flatMap (Mishap.script channel.link.config.address) ++
        (MasterScript.exchange channel.link.config.address payload.bytes.length reply.bytes ++
          rest))
    (hpolls : channel.link.script.length ≤ polls) :
    ∃ made last after, channel.attemptsMade polls payload = some (made, last) ∧
      made.length = mishaps.length + 1 ∧
      channel.request polls payload.bytes = some (.ok (), after) ∧
      after.link.script = rest ∧
      after.link.board.sentBytes = channel.link.board.sentBytes ++
        (mishaps.flatMap Mishap.handedOut ++ .ofNat payload.bytes.length :: payload.bytes) ∧
      after.takeResponse.1 = reply.asReply? ∧
      after.pending.frames =
        (mishaps.filterMap Mishap.event? ++ events [reply]).rtake pendingCapacity := by
  have hcleared : ({ channel with response := none } : Channel ScriptedBoard κ).link.Prompt :=
    hprompt
  obtain ⟨made, last, hmade, hthrough⟩ :=
    tries_come_through 1 hcleared hlong hfew hscript hpolls
  obtain ⟨hlength, ⟨once, honce, hreply⟩, hdelivered, hadvances⟩ := hthrough
  have hok := (conclude_ok_iff channel.link.diagnostics.signalFailures.count made last).mpr
    ⟨once, honce, reply, hreply⟩
  have hrequest := request_eq polls payload channel
  have hattempts : channel.attemptsMade polls payload = some (made, last) := hmade
  rw [hattempts, Option.map_some] at hrequest
  have hafter : conclude channel.link.diagnostics.signalFailures.count made last =
      (.ok (), { last with link := last.link.unload }) := by
    unfold conclude at hok ⊢
    split
    · rfl
    · simp_all
  rw [hafter] at hrequest
  have htook := tries_took hmade
  rw [hdelivered] at htook
  obtain ⟨hevents, hresponses⟩ := Mishap.events_of_mishaps mishaps
  refine ⟨made, last, _, hattempts, hlength, hrequest, ?_, ?_, ?_, ?_⟩
  · rw [← List.append_assoc] at hscript
    exact hadvances.script_eq hscript
  · exact hadvances.sent
  · change last.response = reply.asReply?
    rw [htook.response, responses_append, hresponses, responses_singleton, Frame.asReply?]
    split <;> rfl
  · change last.pending.frames = _
    rw [htook.pending, Pending.frames_parkAll, events_append, hevents, hempty]
    rfl

def threeMishaps : List (Mishap Payload.noop) :=
  [.pushed lidEvent (by decide) (by decide), .brokenOff 1 (by decide),
    .unanswered [0x07] (by decide)]

def mishapsThenReply : Channel ScriptedBoard Silent :=
  scripted {} (threeMishaps.flatMap (Mishap.script MasterScript.usualAddress) ++
    MasterScript.exchange MasterScript.usualAddress 2 noopResponse.bytes)

theorem request_comes_through_three :
    ∃ made last after, mishapsThenReply.attemptsMade 40 .noop = some (made, last) ∧
      made.length = 4 ∧
      mishapsThenReply.request 40 Payload.noop.bytes = some (.ok (), after) ∧
      after.link.script = [] ∧
      after.link.board.sentBytes = [2, 7, 2, 7, 2, 2, 7, 2] ∧
      after.takeResponse.1 = some noopResponse ∧
      after.pending.frames = [lidEvent] := by
  have hprompt : mishapsThenReply.link.Prompt := ⟨rfl, by decide⟩
  have hfew : threeMishaps.length < mishapsThenReply.link.config.maxAttempts.toNat := by decide
  have hscript : mishapsThenReply.link.script =
      threeMishaps.flatMap (Mishap.script mishapsThenReply.link.config.address) ++
        (MasterScript.exchange mishapsThenReply.link.config.address Payload.noop.bytes.length
          noopResponse.bytes ++ []) := by decide
  have hpolls : mishapsThenReply.link.script.length ≤ 40 := by decide
  have hthrough := request_comes_through hprompt rfl (by decide) hfew hscript hpolls
  obtain ⟨made, last, after, hmade, hlength, hdone, hrest, hsent, htaken, hwaiting⟩ := hthrough
  refine ⟨made, last, after, hmade, hlength, hdone, hrest, ?_, ?_, ?_⟩
  · rw [hsent]
    decide
  · rw [htaken]
    decide
  · rw [hwaiting]
    decide

end Channel

end EcLink
