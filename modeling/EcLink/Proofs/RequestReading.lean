import EcLink.Proofs.Calls
import EcLink.Proofs.RequestAccounting
import Mathlib.Data.List.DropRight

/-!
# What the controller reads is the request

While a payload is queued the controller may start over as often as it likes, read a part, or write
something else. But once it has called the link, **what it has read since is the size of the payload
and then a part of it from the front**, and a call ends with the payload read only where that part
is the whole. So the last bytes that went out in such a call are the request, whatever earlier calls
left behind, and this is so in every attempt of every request.
-/

namespace EcLink

namespace Transaction

/-- With this payload queued, and with so many bytes handed out that the last of them are the size
    of the payload and what is out of it. A transaction that is not read has nothing to show. -/
structure HandsOut (payload : Payload) (sent : List UInt8) (transaction : Transaction) :
    Prop where
  queued : transaction.outbox.payload = some payload
  rests : transaction.phase ≠ .announcing
  taken : transaction.phase = .sending → transaction.outbox.sent ≤ payload.bytes.length ∧
    payload.sizeByte :: payload.bytes.take transaction.outbox.sent <:+ sent

variable {address : UInt8} {glimpse : Glimpse} {transaction next : Transaction}
  {payload : Payload} {actions : List Action} {sent : List UInt8}

theorem Continues.keeps_queue (hcontinues : Continues address glimpse transaction actions next)
    (hqueued : transaction.outbox.payload = some payload) :
    next.outbox.payload = some payload := by
  cases hcontinues with
  | turned => simp [offered, hqueued]
  | _ => exact hqueued

/-- Being called comes first: whatever the transaction was in the middle of is forgotten. -/
theorem Continues.of_start (hcontinues : Continues address glimpse transaction actions next)
    (hstart : glimpse.status = .start) :
    actions = [] ∧ next = transaction.addressed := by
  have hnew : glimpse.status.isStart = true := (Status.isStart_iff _).mpr hstart
  cases hcontinues with
  | waiting hidle =>
      rw [hstart] at hidle
      cases hidle
  | called => exact ⟨rfl, rfl⟩
  | turned hphase hread =>
      rw [hstart] at hread
      cases hread
  | headed hphase hlater => simp [hnew] at hlater
  | stored hphase hlater => simp [hnew] at hlater
  | dropped hphase hfull hlater => simp [hnew] at hlater
  | announced hphase hlater => simp [hnew] at hlater
  | handedOut hphase hdue hlater => simp [hnew] at hlater

theorem handsOut_addressed (hqueued : transaction.outbox.payload = some payload)
    (sent : List UInt8) : HandsOut payload sent transaction.addressed := by
  refine ⟨hqueued, ?_, ?_⟩
  · intro hphase
    cases hphase
  · intro hphase
    cases hphase

theorem sentBytes_turned (queued : Option Payload) (size : UInt8) :
    (substitution queued ++ [Action.send size, .release]).filterMap Action.sentByte? = [size] := by
  unfold substitution
  split <;> rfl

theorem HandsOut.continues (hhandsOut : HandsOut payload sent transaction)
    (hcontinues : Continues address glimpse transaction actions next) :
    HandsOut payload (sent ++ actions.filterMap Action.sentByte?) next := by
  have hqueued := hcontinues.keeps_queue hhandsOut.queued
  cases hcontinues with
  | waiting hidle => simpa using hhandsOut
  | called hcalled hours => exact handsOut_addressed hhandsOut.queued _
  | headed hphase hlater => exact ⟨hqueued, by simp [accept], by simp [accept]⟩
  | stored hphase hlater => exact ⟨hqueued, by simp [accept], by simp [accept]⟩
  | dropped hphase hfull hlater => exact ⟨hqueued, by simp [hphase], by simp [hphase]⟩
  | announced hphase hlater => exact (hhandsOut.rests hphase).elim
  | turned hphase hread hcommand =>
      refine ⟨hqueued, by simp, ?_⟩
      intro _
      rw [sentBytes_turned, hhandsOut.queued]
      exact ⟨Nat.zero_le _, List.suffix_append _ _⟩
  | @handedOut due hphase hdue hlater =>
      obtain ⟨hbound, hsuffix⟩ := hhandsOut.taken hphase
      have hbyte : payload.bytes[transaction.outbox.sent]? = some due := by
        simpa [Outbox.due?, hhandsOut.queued] using hdue
      obtain ⟨hless, -⟩ := List.getElem?_eq_some_iff.mp hbyte
      refine ⟨hqueued, by simp [hphase], ?_⟩
      intro _
      -- One byte more is out of the payload, and it is the one that was sent.
      have hmore : payload.bytes.take (transaction.outbox.sent + 1) =
          payload.bytes.take transaction.outbox.sent ++ [due] := by
        rw [List.take_add_one, hbyte]
        rfl
      refine ⟨hless, ?_⟩
      change payload.sizeByte :: payload.bytes.take (transaction.outbox.sent + 1) <:+ sent ++ [due]
      rw [hmore, ← List.cons_append]
      exact List.suffix_append_self_iff.mpr hsuffix

theorem HandsOut.concludes (hhandsOut : HandsOut payload sent transaction)
    (hconcludes : Concludes address glimpse transaction actions .sent next) :
    payload.sizeByte :: payload.bytes <:+ sent ++ actions.filterMap Action.sentByte? := by
  cases hconcludes with
  | sent hstop hphase hdue =>
      obtain ⟨hbound, hsuffix⟩ := hhandsOut.taken hphase
      have hall : payload.bytes.length ≤ transaction.outbox.sent := by
        simpa [Outbox.due?, hhandsOut.queued] using hdue
      rw [List.take_of_length_le hall] at hsuffix
      simpa using hsuffix

end Transaction

open Transaction in
/-- **A call that ends with the payload read, and in which the link was called, ends with the
    payload behind its size.** -/
theorem Undergoes.hands_out {address : UInt8} {transaction final : Transaction}
    {glimpses : List Glimpse} {actions : List Action} {outcome : Outcome} {payload : Payload}
    (hundergoes : Undergoes address transaction glimpses actions outcome final)
    (hsent : outcome = .sent) {sent : List UInt8}
    (hwhole : HandsOut payload sent transaction ∨
      (transaction.outbox.payload = some payload ∧ .start ∈ glimpses.map Glimpse.status)) :
    payload.sizeByte :: payload.bytes <:+ sent ++ actions.filterMap Action.sentByte? := by
  -- The induction is on the polls. Up to the first call nothing is known of the bytes sent, and
  -- from it on they end with what is out of the payload.
  induction hundergoes generalizing sent with
  | goesOn hopen hlater ih =>
      have hcontinues := meet_continues hopen
      rw [List.filterMap_append, ← List.append_assoc]
      refine ih hsent ?_
      rcases hwhole with hhandsOut | ⟨hqueued, hstart⟩
      · exact .inl (hhandsOut.continues hcontinues)
      · rw [List.map_cons] at hstart
        rcases List.mem_cons.mp hstart with hnow | hlater
        · obtain ⟨hnothing, hnext⟩ := hcontinues.of_start hnow.symm
          rw [hnext]
          exact .inl (handsOut_addressed hqueued _)
        · exact .inr ⟨hcontinues.keeps_queue hqueued, hlater⟩
  | ends hends =>
      subst hsent
      obtain ⟨-, hconcludes⟩ := meet_concludes hends
      rcases hwhole with hhandsOut | ⟨-, hstart⟩
      · exact hhandsOut.concludes hconcludes
      · -- The poll that calls the link is not a stop.
        have hstop := hconcludes.stop_of_done rfl
        rw [← List.mem_singleton.mp hstart] at hstop
        cases hstop
  | givenUp hopen hreason =>
      subst hsent
      rcases hreason with hidle | hlate
      · cases hidle
      · cases hlate

namespace Link

variable {σ κ : Type}

/-- What has passed between a link and its board since it was in an earlier state. -/
def signalsSince (before after : Link (Traced σ) κ) : List Signal :=
  after.board.trace.drop before.board.trace.length

theorem signalsSince_eq {before after : Link (Traced σ) κ} {signals : List Signal}
    (htrace : after.board.trace = before.board.trace ++ signals) :
    before.signalsSince after = signals := by
  rw [signalsSince, htrace, List.drop_left]

theorem Logged.status_of_polled {glimpses : List Glimpse} {actions : List Action}
    {before after : Link (Traced σ) κ} {status : Status}
    (hlogged : Logged (glimpses.flatMap Glimpse.inputs) actions before after)
    (hpolled : .polled status ∈ before.signalsSince after) :
    status ∈ glimpses.map Glimpse.status := by
  obtain ⟨signals, htrace, hinputs, -⟩ := hlogged.trace
  rw [signalsSince_eq htrace] at hpolled
  have hinput : .polled status ∈ glimpses.flatMap Glimpse.inputs := by
    rw [← hinputs]
    exact List.mem_filter.mpr ⟨hpolled, rfl⟩
  obtain ⟨glimpse, hglimpse, hmem⟩ := List.mem_flatMap.mp hinput
  exact List.mem_map.mpr ⟨glimpse, hglimpse, Glimpse.polled_mem_inputs.mp hmem⟩

variable [Board σ] [Console κ]

theorem transact_hands_out {polls : Nat} {mode : Mode} {link after : Link (Traced σ) κ}
    {payload : Payload} (hdone : link.transact polls mode = some (.sent, after))
    (hqueued : link.transaction.outbox.payload = some payload)
    (hstart : .polled .start ∈ link.signalsSince after) :
    payload.sizeByte :: payload.bytes <:+
      (link.signalsSince after).filterMap Signal.sentByte? := by
  obtain ⟨glimpses, actions, hundergoes, hlogged, -⟩ := transact_undergoes hdone
  obtain ⟨signals, htrace, -, hsent, -⟩ := hlogged.trace
  have hcalled := hlogged.status_of_polled hstart
  rw [signalsSince_eq htrace, hsent]
  have hbefore : Transaction.HandsOut payload [] link.transaction ∨
      (link.transaction.outbox.payload = some payload ∧ .start ∈ glimpses.map Glimpse.status) :=
    .inr ⟨hqueued, hcalled⟩
  have hwhole := hundergoes.hands_out rfl hbefore
  rwa [List.nil_append] at hwhole

end Link

/-! ### In every attempt -/

/-- One call in which the controller was to read a request: how it ended, and what passed between
    the link and the board. -/
structure Reading where
  outcome : Outcome
  signals : List Signal
  deriving DecidableEq, Repr

/-- In these signals of an attempt the request line is pulled, and the reading comes next. -/
def Reading.Opens (reading : Reading) (segment : List Signal) : Prop :=
  Signal.PulledOnce segment ∧ reading.signals <+: segment.tail

namespace Channel

variable {σ κ : Type} [Board σ] [Console κ]

/-- The calls in which a request was to be read, one for each attempt. -/
def readings (polls : Nat) (payload : Payload) :
    (left number : Nat) → Channel (Traced σ) κ → List Reading
  | 0, _, _ => []
  | left + 1, number, channel =>
      match (channel.offer payload).receive polls .blocking with
      | none => []
      | some (first, heard) =>
          ⟨first, (channel.offer payload).link.signalsSince heard.link⟩ ::
            match channel.tryOnce polls payload with
            | none => []
            | some (once, after) =>
                if once.failedIn?.isNone then []
                else readings polls payload left (number + 1) (sayResult number once after)

def readingsMade (polls : Nat) (payload : Payload) (channel : Channel (Traced σ) κ) :
    List Reading :=
  readings polls payload channel.link.config.maxAttempts.toNat 1 { channel with response := none }

theorem offer_queued (payload : Payload) (channel : Channel (Traced σ) κ) :
    (channel.offer payload).link.transaction.outbox.payload = some payload := by
  simp only [offer, Link.assertRequest, Link.drive]
  split <;> rfl

theorem receive_trace {polls : Nat} {mode : Mode} {channel after : Channel (Traced σ) κ}
    {outcome : Outcome} (hdone : channel.receive polls mode = some (outcome, after)) :
    ∃ link, channel.link.transact polls mode = some (outcome, link) ∧
      after.link.board = link.board := by
  rw [receive_eq] at hdone
  obtain ⟨⟨outcome', link⟩, htransact, hend⟩ := Option.map_eq_some_iff.mp hdone
  cases hend
  refine ⟨link, htransact, ?_⟩
  rcases keep_link outcome { channel with link } with hkept | hkept
  · rw [hkept]
  · rw [hkept]
    rfl

theorem readings_hand_out {polls left number : Nat} {payload : Payload}
    {channel : Channel (Traced σ) κ} {reading : Reading}
    (hreading : reading ∈ readings polls payload left number channel)
    (hsent : reading.outcome = .sent) (hstart : .polled .start ∈ reading.signals) :
    payload.sizeByte :: payload.bytes <:+ reading.signals.filterMap Signal.sentByte? := by
  induction left generalizing number channel with
  | zero => cases hreading
  | succ left ih =>
      rw [readings] at hreading
      split at hreading
      · cases hreading
      case h_2 first heard hfirst =>
        rcases List.mem_cons.mp hreading with rfl | hlater
        · obtain ⟨link, htransact, hboard⟩ := receive_trace hfirst
          have hsame : (channel.offer payload).link.signalsSince heard.link =
              (channel.offer payload).link.signalsSince link := by
            rw [Link.signalsSince, hboard, Link.signalsSince]
          dsimp only at hsent hstart ⊢
          rw [hsame] at hstart ⊢
          rw [hsent] at htransact
          exact Link.transact_hands_out htransact (offer_queued payload channel) hstart
        · split at hlater
          · cases hlater
          · split at hlater
            · cases hlater
            · exact ih hlater

/-- The readings follow the attempts: the first one is that of the first attempt, and there are
    others if that one is not answered. -/
theorem readings_succ {polls left number : Nat} {payload : Payload}
    {channel after : Channel (Traced σ) κ} {made : List Try}
    (hmade : tries polls payload (left + 1) number channel = some (made, after)) :
    ∃ once heard middle,
      (channel.offer payload).receive polls .blocking = some (once.first, heard) ∧
      Link.Quietly heard.link middle.link ∧
      ((made = [once] ∧ after = middle ∧
          readings polls payload (left + 1) number channel =
            [⟨once.first, (channel.offer payload).link.signalsSince heard.link⟩]) ∨
        (∃ more, made = once :: more ∧
          tries polls payload left (number + 1) (sayResult number once middle) =
            some (more, after) ∧
          readings polls payload (left + 1) number channel =
            ⟨once.first, (channel.offer payload).link.signalsSince heard.link⟩ ::
              readings polls payload left (number + 1) (sayResult number once middle))) := by
  obtain ⟨once, middle, honce, hrest⟩ := tries_succ hmade
  obtain ⟨heard, hfirst, hquiet⟩ := first_of_tryOnce honce
  refine ⟨once, heard, middle, hfirst, hquiet, ?_⟩
  rcases hrest with ⟨frame, hframe, rfl, rfl⟩ | ⟨more, hnone, rfl, hmore⟩
  · have hanswered := once.failedIn?_eq_none_iff.mpr ⟨frame, hframe⟩
    exact .inl ⟨rfl, rfl, by simp [readings, hfirst, honce, hanswered]⟩
  · obtain ⟨leg, hleg⟩ := Try.exists_leg hnone
    exact .inr ⟨more, rfl, hmore, by simp [readings, hfirst, honce, hleg]⟩

theorem readings_outcomes {polls left number : Nat} {payload : Payload}
    {channel after : Channel (Traced σ) κ} {made : List Try}
    (hmade : tries polls payload left number channel = some (made, after)) :
    (readings polls payload left number channel).map Reading.outcome = made.map Try.first := by
  induction left generalizing number channel made with
  | zero =>
      cases hmade
      rfl
  | succ left ih =>
      obtain ⟨once, heard, middle, -, -, ⟨rfl, -, hreadings⟩ | ⟨more, rfl, hmore, hreadings⟩⟩ :=
        readings_succ hmade
      · rw [hreadings]
        rfl
      · rw [hreadings, List.map_cons, List.map_cons, ih hmore]

/-! ### Where the readings are in a request -/

theorem reading_opens {polls : Nat} {payload : Payload}
    {channel heard after : Channel (Traced σ) κ} {first : Outcome}
    (hfirst : (channel.offer payload).receive polls .blocking = some (first, heard))
    (hquiet : Link.Quietly heard.link after.link) :
    ∃ segment, Reading.Opens ⟨first, (channel.offer payload).link.signalsSince heard.link⟩ segment ∧
      Link.Shows segment channel.link after.link := by
  obtain ⟨worked, hoffer⟩ := offer_shows payload channel
  obtain ⟨reading, hread, hnoPull⟩ := receive_quietly hfirst
  obtain ⟨reply, hreplied, hnoPull'⟩ := hquiet
  rw [Link.signalsSince_eq hread.trace]
  refine ⟨.drove .low worked :: (reading ++ reply), ⟨⟨worked, _, rfl, ?_⟩, ?_⟩,
    hoffer.trans (hread.trans hreplied)⟩
  · intro signal hsignal
    rcases List.mem_append.mp hsignal with hmem | hmem
    · exact hnoPull signal hmem
    · exact hnoPull' signal hmem
  · exact List.prefix_append reading reply

theorem readings_open {polls left number : Nat} {payload : Payload}
    {channel after : Channel (Traced σ) κ} {made : List Try}
    (hmade : tries polls payload left number channel = some (made, after)) :
    ∃ segments, List.Forall₂ Reading.Opens (readings polls payload left number channel) segments ∧
      Link.Shows segments.flatten channel.link after.link := by
  induction left generalizing number channel made with
  | zero =>
      cases hmade
      exact ⟨[], .nil, .refl _⟩
  | succ left ih =>
      obtain ⟨once, heard, middle, hfirst, hquiet, hrest⟩ := readings_succ hmade
      obtain ⟨segment, hopens, hshows⟩ := reading_opens hfirst hquiet
      rcases hrest with ⟨rfl, rfl, hreadings⟩ | ⟨more, rfl, hmore, hreadings⟩
      · rw [hreadings]
        exact ⟨[segment], .cons hopens .nil, by simpa using hshows⟩
      · obtain ⟨segments, hothers, hlater⟩ := ih hmore
        rw [hreadings]
        exact ⟨segment :: segments, .cons hopens hothers, (sayResult_shows hshows).trans hlater⟩

/-- **Where a request is read, it is read as it was made.** There is a reading for each attempt. A
    request that ends is these attempts, and what passed in it is, one attempt after the other, the
    request line pulled and then the reading, with the reply behind it. And if a reading ends with
    the request read, and the link was called in it, then the last bytes that went out are the size
    of the payload and the payload. -/
theorem payload_read_in_every_attempt (polls : Nat) (payload : Payload)
    (channel : Channel (Traced σ) κ) :
    (∀ made last, channel.attemptsMade polls payload = some (made, last) →
      (channel.readingsMade polls payload).map Reading.outcome = made.map Try.first) ∧
    (∀ result after, channel.request polls payload.bytes = some (result, after) →
      ∃ made last segments, channel.attemptsMade polls payload = some (made, last) ∧
        conclude channel.link.diagnostics.signalFailures.count made last = (result, after) ∧
        List.Forall₂ Reading.Opens (channel.readingsMade polls payload) segments ∧
        channel.link.signalsSince after.link = segments.flatten) ∧
    ∀ reading ∈ channel.readingsMade polls payload, reading.outcome = .sent →
      .polled .start ∈ reading.signals →
      (reading.signals.filterMap Signal.sentByte?).rtake (payload.bytes.length + 1) =
          payload.sizeByte :: payload.bytes ∧
        payload.sizeByte.toNat = payload.bytes.length := by
  refine ⟨?_, ?_, ?_⟩
  · intro made last hmade
    exact readings_outcomes hmade
  · intro result after hdone
    rw [request_eq] at hdone
    obtain ⟨⟨made, last⟩, hmade, hend⟩ := Option.map_eq_some_iff.mp hdone
    obtain ⟨segments, hopen, hshows⟩ := readings_open hmade
    obtain ⟨hboard, -⟩ :=
      conclude_board channel.link.diagnostics.signalFailures.count made last
    rw [hend] at hboard
    have htrace := hshows.trace
    rw [← hboard] at htrace
    exact ⟨made, last, segments, hmade, hend, hopen, Link.signalsSince_eq htrace⟩
  · intro reading hreading hsent hstart
    obtain ⟨earlier, hbytes⟩ := readings_hand_out hreading hsent hstart
    refine ⟨?_, payload.toNat_sizeByte⟩
    rw [← hbytes, List.rtake, List.length_append, List.length_cons, Nat.add_sub_cancel,
      List.drop_left]

/-- The controller reads one byte of a request of two, starts over, reads it all and answers. -/
def brokenReadFirst : List ScriptStep :=
  (MasterScript.reads MasterScript.usualAddress 1).dropLast ++
    MasterScript.exchange MasterScript.usualAddress 2 noopResponse.bytes

theorem payload_read_after_restart :
    (∃ after segments,
      (scripted {} brokenReadFirst).request 20 Payload.noop.bytes = some (.ok (), after) ∧
      List.Forall₂ Reading.Opens ((scripted {} brokenReadFirst).readingsMade 20 .noop) segments ∧
      (scripted {} brokenReadFirst).link.signalsSince after.link = segments.flatten) ∧
    ∃ reading ∈ (scripted {} brokenReadFirst).readingsMade 20 .noop,
      reading.outcome = .sent ∧ .polled .start ∈ reading.signals ∧
      reading.signals.filterMap Signal.sentByte? = [2, 7, 2, 7, 2] ∧
      (reading.signals.filterMap Signal.sentByte?).rtake (Payload.noop.bytes.length + 1) =
          Payload.noop.sizeByte :: Payload.noop.bytes ∧
        Payload.noop.sizeByte.toNat = Payload.noop.bytes.length := by
  obtain ⟨-, hrequests, hread⟩ :=
    payload_read_in_every_attempt 20 .noop (scripted {} brokenReadFirst)
  constructor
  · have hrun : ((scripted {} brokenReadFirst).request 20 Payload.noop.bytes).map Prod.fst =
        some (.ok ()) := rfl
    obtain ⟨⟨result, after⟩, hdone, hok⟩ := Option.map_eq_some_iff.mp hrun
    cases hok
    obtain ⟨made, last, segments, -, -, hopen, hsignals⟩ := hrequests _ _ hdone
    exact ⟨after, segments, hdone, hopen, hsignals⟩
  · have hrun : ((scripted {} brokenReadFirst).readingsMade 20 .noop).map (fun reading =>
        (reading.outcome, decide (.polled .start ∈ reading.signals),
          reading.signals.filterMap Signal.sentByte?)) = [(.sent, true, [2, 7, 2, 7, 2])] := by
      decide
    obtain ⟨reading, hreadings, hreading⟩ := List.map_eq_singleton_iff.mp hrun
    simp only [Prod.mk.injEq, decide_eq_true_eq] at hreading
    obtain ⟨hsent, hstart, hbytes⟩ := hreading
    have hmem : reading ∈ (scripted {} brokenReadFirst).readingsMade 20 .noop := by
      rw [hreadings]
      exact List.mem_singleton_self _
    exact ⟨reading, hmem, hsent, hstart, hbytes, hread reading hmem hsent hstart⟩

end Channel

end EcLink
