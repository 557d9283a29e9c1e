import EcLink.Proofs.Attempts
import EcLink.Proofs.Observation

/-!
# What a request reports

A request is answered exactly if one of its attempts is, and then no attempt follows that one.
Otherwise all attempts allowed were made, and the error counts them: by the half of the exchange
in which each failed, with the request line drives that did not work since the request began.
Every attempt pulls the request line once, before anything else, and nothing stays queued. The
board is arbitrary, so this is so whatever the controller, the pin and the clock do.
-/

namespace EcLink

/-! ### Adding up setbacks -/

namespace Try

theorem failedIn?_eq_send_iff (once : Try) : once.failedIn? = some .send ↔ once.first ≠ .sent := by
  rcases once with ⟨parked, ⟨outcome, hother⟩ | outcome⟩
  · simpa [failedIn?, result, Try.first] using hother
  · cases outcome <;> simp [failedIn?, result, Try.first]

theorem failedIn?_eq_receive_iff (once : Try) :
    once.failedIn? = some .receive ↔ (once.second?.any fun second => second.frame?.isNone) := by
  rcases once with ⟨parked, _ | second⟩
  · simp [failedIn?, result, second?]
  · cases second <;> simp [failedIn?, result, second?, Outcome.frame?]

theorem exists_leg {once : Try} (hfailed : once.reply? = none) :
    ∃ leg, once.failedIn? = some leg := by
  cases hleg : once.failedIn? with
  | some leg => exact ⟨leg, rfl⟩
  | none =>
      obtain ⟨frame, hframe⟩ := once.failedIn?_eq_none_iff.mp hleg
      rw [hfailed] at hframe
      cases hframe

end Try

namespace Setbacks

theorem addAll_of_failed (setbacks : Setbacks) {made : List Try}
    (hfailed : ∀ once ∈ made, once.reply? = Option.none) :
    ∃ total, setbacks.addAll made = some total ∧
      total.send.count = min (setbacks.send.count +
        made.countP fun once => once.failedIn? = some .send) 255 ∧
      total.receive.count = min (setbacks.receive.count +
        made.countP fun once => once.failedIn? = some .receive) 255 ∧
      total.last = (made.getLast?.bind Try.failedIn?).getD setbacks.last := by
  induction made generalizing setbacks with
  | nil =>
      have hsend := setbacks.send.count_le
      have hreceive := setbacks.receive.count_le
      exact ⟨setbacks, rfl, by simp; omega, by simp; omega, rfl⟩
  | cons once made ih =>
      obtain ⟨leg, hleg⟩ := Try.exists_leg (hfailed once List.mem_cons_self)
      have hothers : ∀ later ∈ made, later.reply? = Option.none := by
        intro later hlater
        exact hfailed later (List.mem_cons_of_mem _ hlater)
      obtain ⟨total, htotal, hsend, hreceive, hlast⟩ := ih (setbacks.add leg) hothers
      refine ⟨total, by simp [addAll, hleg, htotal], ?_, ?_, ?_⟩
      · rw [hsend, List.countP_cons]
        cases leg with
        | send =>
            simp only [add, hleg, Tally.count_bump, decide_true, if_true]
            omega
        | receive => simp [add, hleg]
      · rw [hreceive, List.countP_cons]
        cases leg with
        | send => simp [add, hleg]
        | receive =>
            simp only [add, hleg, Tally.count_bump, decide_true, if_true]
            omega
      · rw [hlast]
        cases made with
        | nil => cases leg <;> simp [add, hleg]
        | cons next made =>
            obtain ⟨final, hfinal⟩ : ∃ final, (next :: made).getLast? = some final :=
              ⟨_, List.getLast?_eq_some_getLast (by simp)⟩
            have hmem : final ∈ once :: next :: made :=
              List.mem_cons_of_mem _ (List.mem_of_getLast? hfinal)
            obtain ⟨leg', hleg'⟩ := Try.exists_leg (hfailed final hmem)
            simp [List.getLast?_cons_cons, hfinal, hleg']

end Setbacks

/-! ### What an attempt shows -/

/-- The request line was pulled at the start of these signals, and not again. -/
def Signal.PulledOnce (signals : List Signal) : Prop :=
  ∃ worked later, signals = .drove .low worked :: later ∧ ∀ signal ∈ later, signal.isPull = false

namespace Channel

variable {σ κ : Type} [Console κ]

theorem accept_link (frame : Frame) (channel : Channel σ κ) :
    (channel.accept frame).link = channel.link ∨
      (channel.accept frame).link = channel.link.tell .eventEvicted := by
  unfold accept
  split
  · exact .inl rfl
  · split
    · exact .inr rfl
    · exact .inl rfl

theorem keep_link (outcome : Outcome) (channel : Channel σ κ) :
    (channel.keep outcome).link = channel.link ∨
      (channel.keep outcome).link = channel.link.tell .eventEvicted := by
  unfold keep
  split
  · exact accept_link _ channel
  · exact .inl rfl

theorem sayResult_shows {before : Link (Traced σ) κ} {signals : List Signal} {number : Nat}
    {once : Try} {channel : Channel (Traced σ) κ}
    (hshows : Link.Shows signals before channel.link) :
    Link.Shows signals before (sayResult number once channel).link := by
  unfold sayResult
  split
  · exact hshows
  · exact hshows.tell _
  · exact hshows.tell _

variable [Board σ]

theorem receive_quietly {polls : Nat} {mode : Mode} {channel after : Channel (Traced σ) κ}
    {outcome : Outcome} (hdone : channel.receive polls mode = some (outcome, after)) :
    Link.Quietly channel.link after.link := by
  rw [receive_eq] at hdone
  obtain ⟨⟨outcome', link⟩, htransact, heq⟩ := Option.map_eq_some_iff.mp hdone
  cases heq
  have hquiet := Link.transact_quietly htransact
  rcases keep_link outcome { channel with link } with hkept | hkept
  · rw [hkept]
    exact hquiet
  · rw [hkept]
    exact hquiet.trans (.of_nothing rfl rfl)

theorem offer_shows (payload : Payload) (channel : Channel (Traced σ) κ) :
    ∃ worked, Link.Shows [.drove .low worked] channel.link (channel.offer payload).link := by
  have hdrive := Link.drive_shows .low (channel.link.load payload)
  exact ⟨_, hdrive.trace, hdrive.failures⟩

theorem first_of_tryOnce {polls : Nat} {payload : Payload} {channel after : Channel (Traced σ) κ}
    {once : Try} (honce : channel.tryOnce polls payload = some (once, after)) :
    ∃ heard, (channel.offer payload).receive polls .blocking = some (once.first, heard) ∧
      Link.Quietly heard.link after.link := by
  unfold tryOnce at honce
  obtain ⟨⟨first, heard⟩, hfirst, honce⟩ := Option.bind_eq_some_iff.mp honce
  refine ⟨heard, ?_⟩
  dsimp only at honce
  split at honce
  case isTrue hsent =>
    obtain ⟨⟨second, last⟩, hsecond, hend⟩ := Option.bind_eq_some_iff.mp honce
    cases hend
    rw [hfirst, hsent]
    exact ⟨rfl, receive_quietly hsecond⟩
  case isFalse hother =>
    cases honce
    exact ⟨hfirst, .of_nothing rfl rfl⟩

theorem tryOnce_pulls {polls : Nat} {payload : Payload} {channel after : Channel (Traced σ) κ}
    {once : Try} (honce : channel.tryOnce polls payload = some (once, after)) :
    ∃ signals, Signal.PulledOnce signals ∧ Link.Shows signals channel.link after.link := by
  obtain ⟨worked, hoffer⟩ := offer_shows payload channel
  obtain ⟨heard, hfirst, hquiet⟩ := first_of_tryOnce honce
  obtain ⟨later, hshows, hnoPull⟩ := (receive_quietly hfirst).trans hquiet
  exact ⟨_, ⟨worked, later, rfl, hnoPull⟩, hoffer.trans hshows⟩

theorem tries_pull {polls left number : Nat} {payload : Payload}
    {channel after : Channel (Traced σ) κ} {made : List Try}
    (hmade : tries polls payload left number channel = some (made, after)) :
    ∃ segments : List (List Signal), segments.length = made.length ∧
      (∀ segment ∈ segments, Signal.PulledOnce segment) ∧
      Link.Shows segments.flatten channel.link after.link := by
  induction left generalizing number channel made with
  | zero =>
      cases hmade
      exact ⟨[], rfl, by simp, Link.Shows.refl _⟩
  | succ left ih =>
      obtain ⟨once, middle, honce, ⟨frame, hframe, rfl, rfl⟩ | ⟨more, hnone, rfl, hmore⟩⟩ :=
        tries_succ hmade
      · obtain ⟨signals, hpulled, hshows⟩ := tryOnce_pulls honce
        exact ⟨[signals], rfl, by simpa using hpulled, by simpa using hshows⟩
      · obtain ⟨signals, hpulled, hshows⟩ := tryOnce_pulls honce
        obtain ⟨segments, hlength, hall, hlater⟩ := ih hmore
        refine ⟨signals :: segments, by simp [hlength], by simpa [hpulled] using hall, ?_⟩
        exact (sayResult_shows hshows).trans hlater

/-! ### The account -/

/-- What a request that made these attempts, and showed these signals while it made each of them,
    reports and leaves behind. -/
structure Accounted (channel : Channel (Traced σ) κ) (made : List Try)
    (segments : List (List Signal)) (result : Except RequestError Unit)
    (after : Channel (Traced σ) κ) : Prop where
  answered_iff : result = .ok () ↔
    ∃ once ∈ made, once.first = .sent ∧ ∃ frame, once.second? = some (.received frame)
  answered_last : ∀ (number : Nat) (once : Try) (frame : Frame), made[number]? = some once →
    once.first = .sent → once.second? = some (.received frame) → made.length = number + 1
  length_le : made.length ≤ channel.link.config.maxAttempts.toNat
  /-- Without an answer all attempts were made, and the error says how they failed. -/
  failed : ∀ error, result = .error error →
    made.length = channel.link.config.maxAttempts.toNat ∧
    ∃ counts : FailureCounts,
      (error = .noReply counts ↔ ∃ last, made.getLast? = some last ∧ last.first = .sent) ∧
      (error = .notSent counts ↔
        made = [] ∨ ∃ last, made.getLast? = some last ∧ last.first ≠ .sent) ∧
      counts.send.count = made.countP (fun once => once.first ≠ .sent) ∧
      counts.receive.count =
        made.countP (fun once => once.second?.any fun second => second.frame?.isNone) ∧
      counts.send.count + counts.receive.count = made.length ∧
      (channel.link.diagnostics.signalFailures.count +
          segments.flatten.countP Signal.isStuck ≤ counterCeiling →
        counts.signal.count = min 255 (segments.flatten.countP Signal.isStuck))
  trace : after.link.board.trace = channel.link.board.trace ++ segments.flatten
  pulls : segments.length = made.length ∧ ∀ segment ∈ segments, Signal.PulledOnce segment
  unloaded : after.link.transaction.outbox = .empty

theorem exists_reply_iff {made : List Try} :
    (∃ once ∈ made, ∃ frame, once.reply? = some frame) ↔
      ∃ once ∈ made, once.first = .sent ∧ ∃ frame, once.second? = some (.received frame) := by
  simp only [Try.reply?_eq_some_iff, exists_and_left]

theorem length_of_answered {made failed : List Try} {last once : Try} {number : Nat} {frame : Frame}
    (hmade : made = failed ++ [last]) (hfailed : ∀ once ∈ failed, once.reply? = none)
    (honce : made[number]? = some once) (hreply : once.reply? = some frame) :
    made.length = number + 1 := by
  obtain ⟨hbound, -⟩ := List.getElem?_eq_some_iff.mp honce
  rw [hmade, List.length_append, List.length_singleton] at hbound ⊢
  by_cases hearly : number < failed.length
  · rw [hmade, List.getElem?_append_left hearly] at honce
    rw [hfailed once (List.mem_of_getElem? honce)] at hreply
    cases hreply
  · omega

theorem countP_failed {made : List Try} (hfailed : ∀ once ∈ made, once.reply? = none) :
    made.countP (fun once => once.failedIn? = some .send) +
      made.countP (fun once => once.failedIn? = some .receive) = made.length := by
  induction made with
  | nil => rfl
  | cons once made ih =>
      obtain ⟨leg, hleg⟩ := Try.exists_leg (hfailed once List.mem_cons_self)
      have hothers : ∀ later ∈ made, later.reply? = none := by
        intro later hlater
        exact hfailed later (List.mem_cons_of_mem _ hlater)
      have hrest := ih hothers
      rw [List.countP_cons, List.countP_cons, List.length_cons]
      cases leg <;> simp [hleg] <;> omega

theorem lastLeg_eq_receive_iff {made : List Try} (hfailed : ∀ once ∈ made, once.reply? = none) :
    (made.getLast?.bind Try.failedIn?).getD .send = .receive ↔
      ∃ last, made.getLast? = some last ∧ last.first = .sent := by
  cases hlast : made.getLast? with
  | none => simp
  | some last =>
      obtain ⟨leg, hleg⟩ := Try.exists_leg (hfailed last (List.mem_of_getLast? hlast))
      have hsend := last.failedIn?_eq_send_iff
      cases leg <;> simp_all

/-- The error after attempts that all failed names the half in which the last one did, and its
    counts add up to the number of attempts. -/
theorem error_of_failed {made : List Try} (hfailed : ∀ once ∈ made, once.reply? = none)
    (hlength : made.length ≤ 255) :
    ∃ total, Setbacks.none.addAll made = some total ∧ ∀ signal, ∃ counts : FailureCounts,
      counts.signal = signal ∧
      (total.error signal = .noReply counts ↔
        ∃ last, made.getLast? = some last ∧ last.first = .sent) ∧
      (total.error signal = .notSent counts ↔
        made = [] ∨ ∃ last, made.getLast? = some last ∧ last.first ≠ .sent) ∧
      counts.send.count = made.countP (fun once => once.first ≠ .sent) ∧
      counts.receive.count =
        made.countP (fun once => once.second?.any fun second => second.frame?.isNone) ∧
      counts.send.count + counts.receive.count = made.length := by
  obtain ⟨total, htotal, hsend, hreceive, hlast⟩ := Setbacks.none.addAll_of_failed hfailed
  have hsum := countP_failed hfailed
  have hsend' : total.send.count = made.countP (fun once => once.failedIn? = some .send) := by
    rw [hsend]
    simp only [Setbacks.none, Tally.count_zero]
    omega
  have hreceive' : total.receive.count =
      made.countP (fun once => once.failedIn? = some .receive) := by
    rw [hreceive]
    simp only [Setbacks.none, Tally.count_zero]
    omega
  have hleg := lastLeg_eq_receive_iff hfailed
  change total.last = (made.getLast?.bind Try.failedIn?).getD .send at hlast
  rw [← hlast] at hleg
  refine ⟨total, htotal, ?_⟩
  intro signal
  refine ⟨⟨total.send, total.receive, signal⟩, rfl, ?_, ?_, ?_, ?_, ?_⟩
  · rw [← hleg]
    cases hcase : total.last <;> simp [Setbacks.error, hcase]
  · have hsent : (made = [] ∨ ∃ last, made.getLast? = some last ∧ last.first ≠ .sent) ↔
        ¬ total.last = .receive := by
      rw [hleg]
      cases hfinal : made.getLast? with
      | none => simpa using hfinal
      | some final =>
          have hne : made ≠ [] := by
            intro hnil
            simp [hnil] at hfinal
          simp [hne]
    rw [hsent]
    cases hcase : total.last <;> simp [Setbacks.error, hcase]
  · simp only [hsend', Try.failedIn?_eq_send_iff]
  · simp only [hreceive', Try.failedIn?_eq_receive_iff, Bool.decide_eq_true]
  · rw [hsend', hreceive', hsum]

/-- **A request is answered exactly if an attempt is, and otherwise accounts for every failure.**
    The attempts are those that were made, so this says what a request reports whenever its
    transactions end. -/
theorem request_accounting {polls : Nat} {payload : Payload} {channel last : Channel (Traced σ) κ}
    {made : List Try} (hmade : channel.attemptsMade polls payload = some (made, last)) :
    ∃ result after segments, channel.request polls payload.bytes = some (result, after) ∧
      Accounted channel made segments result after := by
  obtain ⟨segments, hlength, hpulled, hshows⟩ := tries_pull hmade
  have hrequest := request_eq polls payload channel
  simp only [hmade, Option.map_some, conclude] at hrequest
  rcases tries_shape hmade with ⟨failed, final, frame, heq, hwithin, hframe, hall⟩ | ⟨hfull, hall⟩
  -- The last attempt was answered, and no other one.
  · have hmem : final ∈ made := by simp [heq]
    rw [Setbacks.none.addAll_eq_none_iff.mpr ⟨final, hmem, frame, hframe⟩] at hrequest
    refine ⟨.ok (), _, segments, hrequest, ?_⟩
    exact {
      answered_iff := iff_of_true rfl (exists_reply_iff.mp ⟨final, hmem, frame, hframe⟩)
      answered_last := by
        intro number once reply honce hfirst hsecond
        exact length_of_answered heq hall honce (Try.reply?_eq_some_iff.mpr ⟨hfirst, hsecond⟩)
      length_le := hwithin
      failed := by
        intro error hfalse
        cases hfalse
      trace := hshows.trace
      pulls := ⟨hlength, hpulled⟩
      unloaded := rfl }
  -- No attempt was answered, and there are too few of them for a counter to stop.
  · have hnarrow := channel.link.config.maxAttempts.toNat_lt
    obtain ⟨total, htotal, herror⟩ := error_of_failed hall (by omega)
    have hnoReply : ¬ ∃ once ∈ made, once.first = .sent ∧
        ∃ frame, once.second? = some (.received frame) := by
      rw [← exists_reply_iff]
      rintro ⟨once, hmem, frame, hframe⟩
      rw [hall once hmem] at hframe
      cases hframe
    rw [htotal] at hrequest
    refine ⟨_, _, segments, hrequest, ?_⟩
    exact {
      answered_iff := iff_of_false (by simp) hnoReply
      answered_last := by
        intro number once reply honce hfirst hsecond
        exact (hnoReply ⟨once, List.mem_of_getElem? honce, hfirst, reply, hsecond⟩).elim
      length_le := Nat.le_of_eq hfull
      failed := by
        rintro error ⟨⟩
        obtain ⟨counts, hsignal, hnoReply, hnotSent, hsend, hreceive, hsum⟩ := herror _
        refine ⟨hfull, counts, hnoReply, hnotSent, hsend, hreceive, hsum, ?_⟩
        intro hunsaturated
        have hfailures : last.link.diagnostics.signalFailures.count =
            min (channel.link.diagnostics.signalFailures.count +
              segments.flatten.countP Signal.isStuck) counterCeiling := hshows.failures
        rw [hsignal, Tally.count_ofNat, hfailures]
        omega
      trace := hshows.trace
      pulls := ⟨hlength, hpulled⟩
      unloaded := rfl }

-- An event comes instead of the first read, so it takes two attempts.
theorem request_accounting_after_event :
    ∃ made last, (scripted { maxAttempts := 3 } strayEventFirst).attemptsMade 20 .noop =
        some (made, last) ∧
      made.map Try.first = [.received lidEvent, .sent] ∧
      ∃ result after segments,
        (scripted { maxAttempts := 3 } strayEventFirst).request 20 Payload.noop.bytes =
          some (result, after) ∧
        Accounted (scripted { maxAttempts := 3 } strayEventFirst) made segments result after := by
  have hsome : ((scripted { maxAttempts := 3 } strayEventFirst).attemptsMade 20 .noop).isSome :=
    by decide
  obtain ⟨⟨made, last⟩, hmade⟩ := Option.isSome_iff_exists.mp hsome
  have hfirst : ((scripted { maxAttempts := 3 } strayEventFirst).attemptsMade 20 .noop).map
      (fun record => record.1.map Try.first) = some [.received lidEvent, .sent] := by decide
  rw [hmade] at hfirst
  exact ⟨made, last, hmade, Option.some_inj.mp hfirst, request_accounting hmade⟩

end Channel

end EcLink
