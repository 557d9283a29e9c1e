import EcLink.Proofs.FrameBytes
import EcLink.Proofs.LinkUse

/-!
# Where a request leaves the request line

Every attempt pulls the request line, and only a transaction lets go of it again: on the poll on
which the master, having called and written the read command, asks to read. So **the line is
released after a request exactly if the master asked to read while the last attempt was made**, or
if no attempt was made at all. After any other request the line still says that there is something
to be read, and nothing stays queued. That can happen even to a request that was answered, where the
master read it by going on with a read that an earlier attempt had begun.
-/

namespace EcLink

/-! ### Asking to read -/

namespace Transaction

/-- The master has called and written the read command, and on this poll it asks to read. -/
def AsksToRead (transaction : Transaction) (glimpse : Glimpse) : Prop :=
  transaction.phase = .direction ∧ transaction.inbox.firstCell = readCommand ∧
    glimpse.status.isReadRequest = true

instance (transaction : Transaction) (glimpse : Glimpse) :
    Decidable (transaction.AsksToRead glimpse) :=
  inferInstanceAs (Decidable (_ ∧ _ ∧ _))

/-- Whether the master asks to read on one of these polls. -/
def isAskedOn (address : UInt8) : Transaction → List Glimpse → Bool
  | _, [] => false
  | transaction, glimpse :: later =>
      decide (transaction.AsksToRead glimpse) ||
        (transaction.meet address glimpse).transaction.isAskedOn address later

variable {address : UInt8} {glimpse : Glimpse} {transaction next : Transaction}
  {actions : List Action} {outcome : Outcome}

/-- Being asked to read takes the transaction to sending, with something to send. -/
theorem meet_of_asked (address : UInt8) (hasks : transaction.AsksToRead glimpse) :
    transaction.meet address glimpse =
      ⟨{ transaction with
          phase := .sending, outbox := ⟨some (offered transaction.outbox.payload), 0⟩ },
        substitution transaction.outbox.payload ++
          [.send (offered transaction.outbox.payload).sizeByte, .release], none⟩ := by
  obtain ⟨hphase, hcommand, hread⟩ := hasks
  have hstatus := (Status.isReadRequest_iff _).mp hread
  have hready : glimpse.status.isReady = true := by
    rw [hstatus]
    rfl
  have hlater : glimpse.status.isStart = false := by
    rw [hstatus]
    rfl
  have hgoesOn : glimpse.status.isStop = false := by
    rw [hstatus]
    rfl
  have hturned : transaction.answer address glimpse.status glimpse.byte =
      transaction.turnToReading := by
    simp [answer, hlater, react, hphase, hread]
  simp [meet, hready, hturned, turnToReading_eq hcommand, Reaction.verdict, hgoesOn]

theorem actions_of_asked (address : UInt8) (hasks : transaction.AsksToRead glimpse) :
    (transaction.meet address glimpse).actions =
      substitution transaction.outbox.payload ++
        [.send (offered transaction.outbox.payload).sizeByte, .release] := by
  rw [meet_of_asked address hasks]

theorem release_of_asked (address : UInt8) (hasks : transaction.AsksToRead glimpse) :
    .release ∈ (transaction.meet address glimpse).actions := by
  simp [actions_of_asked address hasks]

theorem Continues.asked_of_release
    (hcontinues : Continues address glimpse transaction actions next)
    (hrests : transaction.phase ≠ .announcing) (hrelease : .release ∈ actions) :
    transaction.AsksToRead glimpse := by
  cases hcontinues with
  | turned hphase hread hcommand => exact ⟨hphase, hcommand, hread⟩
  | announced hphase hlater => exact (hrests hphase).elim
  | _ => simp at hrelease

theorem Concludes.asked_of_release
    (hconcludes : Concludes address glimpse transaction actions outcome next)
    (hrests : transaction.phase ≠ .announcing) (hrelease : .release ∈ actions) :
    transaction.AsksToRead glimpse := by
  cases hconcludes with
  | cutShort hstop hcontinues => exact hcontinues.asked_of_release hrests hrelease
  | _ => simp at hrelease

theorem Continues.rests (hcontinues : Continues address glimpse transaction actions next)
    (hrests : transaction.phase ≠ .announcing) : next.phase ≠ .announcing := by
  cases hcontinues with
  | waiting hidle => exact hrests
  | dropped hphase hfull hlater => exact hrests
  | handedOut hphase hdue hlater => exact hrests
  | _ => exact Phase.noConfusion

theorem Concludes.rests (hconcludes : Concludes address glimpse transaction actions outcome next)
    (hrests : transaction.phase ≠ .announcing) : next.phase ≠ .announcing := by
  cases hconcludes with
  | cutShort hstop hcontinues => exact hcontinues.rests hrests
  | sent hstop hphase hdue => exact hrests
  | earlyStop hstop hphase hdue => exact hrests
  | exhausted hgoesOn hphase hdue => exact hrests
  | _ => exact Phase.noConfusion

/-- To get to sending without having been there, the transaction has to be asked. -/
theorem Continues.asked_or_fresh (hcontinues : Continues address glimpse transaction actions next)
    (hphase : transaction.phase ≠ .sending) (hrests : transaction.phase ≠ .announcing) :
    transaction.AsksToRead glimpse ∨ (next.phase ≠ .sending ∧ next.phase ≠ .announcing) := by
  have hlater := hcontinues.rests hrests
  cases hcontinues with
  | turned hdirection hread hcommand => exact .inl ⟨hdirection, hcommand, hread⟩
  | announced hannouncing hlater => exact (hrests hannouncing).elim
  | handedOut hsending hdue hlater => exact (hphase hsending).elim
  | waiting hidle => exact .inr ⟨hphase, hrests⟩
  | dropped hreceiving hfull hlater => exact .inr ⟨hphase, hrests⟩
  | _ => exact .inr ⟨Phase.noConfusion, hlater⟩

theorem Concludes.phase_of_sent
    (hconcludes : Concludes address glimpse transaction actions .sent next) :
    transaction.phase = .sending := by
  cases hconcludes with
  | sent hstop hphase hdue => exact hphase

theorem meet_rests (address : UInt8) (glimpse : Glimpse)
    (hrests : transaction.phase ≠ .announcing) :
    (transaction.meet address glimpse).transaction.phase ≠ .announcing := by
  cases hend : (transaction.meet address glimpse).outcome with
  | none => exact (meet_continues hend).rests hrests
  | some outcome => exact (meet_concludes hend).2.rests hrests

/-- **The line is let go where the master asks to read**, and nowhere else. -/
theorem release_mem_meet_iff (address : UInt8) (glimpse : Glimpse)
    (hrests : transaction.phase ≠ .announcing) :
    .release ∈ (transaction.meet address glimpse).actions ↔ transaction.AsksToRead glimpse := by
  constructor
  · intro hrelease
    cases hend : (transaction.meet address glimpse).outcome with
    | none => exact (meet_continues hend).asked_of_release hrests hrelease
    | some outcome => exact (meet_concludes hend).2.asked_of_release hrests hrelease
  · exact release_of_asked address

end Transaction

namespace Undergoes

variable {address : UInt8} {transaction final : Transaction} {glimpses : List Glimpse}
  {actions : List Action} {outcome : Outcome}

theorem rests (hundergoes : Undergoes address transaction glimpses actions outcome final)
    (hrests : transaction.phase ≠ .announcing) : final.phase ≠ .announcing := by
  induction hundergoes with
  | goesOn hopen hlater ih => exact ih (Transaction.meet_rests _ _ hrests)
  | ends hends => exact Transaction.meet_rests _ _ hrests
  | givenUp hopen hreason => exact Transaction.meet_rests _ _ hrests

theorem release_mem_iff (hundergoes : Undergoes address transaction glimpses actions outcome final)
    (hrests : transaction.phase ≠ .announcing) :
    .release ∈ actions ↔ transaction.isAskedOn address glimpses = true := by
  induction hundergoes with
  | @goesOn transaction final glimpse glimpses actions outcome hopen hlater ih =>
      have hrest := ih (Transaction.meet_rests _ _ hrests)
      rw [List.mem_append, Transaction.release_mem_meet_iff address glimpse hrests, hrest,
        Transaction.isAskedOn, Bool.or_eq_true, decide_eq_true_iff]
  | @ends transaction glimpse outcome hends =>
      rw [Transaction.release_mem_meet_iff address glimpse hrests]
      simp [Transaction.isAskedOn]
  | @givenUp transaction glimpse outcome hopen hreason =>
      rw [Transaction.release_mem_meet_iff address glimpse hrests]
      simp [Transaction.isAskedOn]

/-- Where the master reads a payload to its end and does not go on with an earlier read, it has
    asked to read. -/
theorem asked_of_sent (hundergoes : Undergoes address transaction glimpses actions outcome final)
    (hsent : outcome = .sent)
    (hfresh : (transaction.phase ≠ .sending ∧ transaction.phase ≠ .announcing) ∨
      .start ∈ glimpses.map Glimpse.status) :
    transaction.isAskedOn address glimpses = true := by
  -- The induction is on the polls. Up to a call nothing is known of the phase, and from it on the
  -- transaction gets to sending only by being asked.
  induction hundergoes with
  | @goesOn transaction final glimpse glimpses actions outcome hopen hlater ih =>
      have hcontinues := Transaction.meet_continues hopen
      rw [Transaction.isAskedOn, Bool.or_eq_true, decide_eq_true_iff]
      rcases hfresh with ⟨hphase, hrests⟩ | hstart
      · rcases hcontinues.asked_or_fresh hphase hrests with hasks | hfresh
        · exact .inl hasks
        · exact .inr (ih hsent (.inl hfresh))
      · rw [List.map_cons] at hstart
        rcases List.mem_cons.mp hstart with hnow | hlater
        · obtain ⟨-, hnext⟩ := hcontinues.of_start hnow.symm
          refine .inr (ih hsent (.inl ?_))
          rw [hnext]
          exact ⟨Phase.noConfusion, Phase.noConfusion⟩
        · exact .inr (ih hsent (.inr hlater))
  | ends hends =>
      subst hsent
      obtain ⟨-, hconcludes⟩ := Transaction.meet_concludes hends
      rcases hfresh with ⟨hphase, -⟩ | hstart
      · exact (hphase hconcludes.phase_of_sent).elim
      · have hstop := hconcludes.stop_of_done rfl
        rw [← List.mem_singleton.mp hstart] at hstop
        cases hstop
  | givenUp hopen hreason =>
      subst hsent
      rcases hreason with hidle | hlate
      · cases hidle
      · cases hlate

end Undergoes

/-! ### The level of the line -/

/-- The level of the request line after these signals. A drive that did not work leaves the line as
    it was. -/
def lineAfter (line : Level) (signals : List Signal) : Level :=
  (signals.filterMap Signal.level?).getLast?.getD line

theorem lineAfter_append (line : Level) (earlier later : List Signal) :
    lineAfter line (earlier ++ later) = lineAfter (lineAfter line earlier) later := by
  unfold lineAfter
  rw [List.filterMap_append, List.getLast?_append]
  cases (later.filterMap Signal.level?).getLast? <;> rfl

theorem levels_of_worked {signals : List Signal}
    (hworked : ∀ signal ∈ signals, signal.isStuck = false) :
    signals.filterMap Signal.level? = signals.filterMap Signal.driven? := by
  apply List.filterMap_congr
  intro signal hsignal
  have hfree := hworked signal hsignal
  cases signal with
  | drove level worked =>
      cases worked with
      | true => rfl
      | false => cases hfree
  | _ => rfl

/-- What a transaction drives is only ever a release. -/
theorem lineAfter_of_driven {signals : List Signal} {actions : List Action}
    (hworked : ∀ signal ∈ signals, signal.isStuck = false)
    (hdriven : signals.filterMap Signal.driven? = actions.filterMap Action.driven?)
    (line : Level) :
    lineAfter line signals = if .release ∈ actions then .high else line := by
  rw [lineAfter, levels_of_worked hworked, hdriven]
  cases hlast : (actions.filterMap Action.driven?).getLast? with
  | none =>
      have hkept : .release ∉ actions := by
        intro hrelease
        have hmem : .high ∈ actions.filterMap Action.driven? :=
          List.mem_filterMap.mpr ⟨.release, hrelease, rfl⟩
        rw [List.getLast?_eq_none_iff.mp hlast] at hmem
        cases hmem
      rw [if_neg hkept]
      rfl
  | some level =>
      obtain ⟨action, hmem, hlevel⟩ := List.mem_filterMap.mp (List.mem_of_getLast? hlast)
      cases action with
      | release =>
          cases hlevel
          rw [if_pos hmem]
          rfl
      | _ => cases hlevel

namespace Link

variable {σ κ : Type}

/-- The level that the request line was last driven to. A line that was never driven is released. -/
def line (link : Link (Traced σ) κ) : Level := lineAfter .high link.board.trace

/-- Whether the master has asked to read since an earlier state. -/
def isAskedSince (before after : Link (Traced σ) κ) : Bool :=
  before.transaction.isAskedOn before.config.address (before.glimpsesSince after)

theorem isAskedSince_congr (before : Link (Traced σ) κ) {after other : Link (Traced σ) κ}
    (hboard : after.board = other.board) :
    before.isAskedSince after = before.isAskedSince other := by
  unfold isAskedSince glimpsesSince signalsSince
  rw [hboard]

/-- The way from one link to another does this to the request line, if no drive on it failed. -/
structure Leads (change : Level → Level) (before after : Link (Traced σ) κ) : Prop where
  rests : after.transaction.phase ≠ .announcing
  trace : ∃ signals, after.board.trace = before.board.trace ++ signals ∧
    ((∀ signal ∈ signals, signal.isStuck = false) → ∀ line, lineAfter line signals = change line)

theorem Leads.nothing {link : Link (Traced σ) κ} (hrests : link.transaction.phase ≠ .announcing) :
    Leads id link link := by
  refine ⟨hrests, [], (List.append_nil _).symm, ?_⟩
  intro _ line
  rfl

theorem Leads.trans {first second third : Link (Traced σ) κ} {change next : Level → Level}
    (hearlier : Leads change first second) (hlater : Leads next second third) :
    Leads (next ∘ change) first third := by
  obtain ⟨-, seen, htrace, hchange⟩ := hearlier
  obtain ⟨hrests, seen', htrace', hchange'⟩ := hlater
  refine ⟨hrests, seen ++ seen', by rw [htrace', htrace, List.append_assoc], ?_⟩
  intro hworked line
  have hfirst : ∀ signal ∈ seen, signal.isStuck = false := by
    intro signal hsignal
    exact hworked signal (List.mem_append_left _ hsignal)
  have hsecond : ∀ signal ∈ seen', signal.isStuck = false := by
    intro signal hsignal
    exact hworked signal (List.mem_append_right _ hsignal)
  rw [lineAfter_append, hchange hfirst, hchange' hsecond]
  rfl

theorem Leads.congr {before after : Link (Traced σ) κ} {change other : Level → Level}
    (hleads : Leads change before after) (hsame : ∀ line, change line = other line) :
    Leads other before after := by
  rw [← funext hsame]
  exact hleads

theorem Leads.line_eq {before after : Link (Traced σ) κ} {change : Level → Level}
    (hleads : Leads change before after)
    (hworked : ∀ signal ∈ before.signalsSince after, signal.isStuck = false) :
    after.line = change before.line := by
  obtain ⟨-, signals, htrace, hchange⟩ := hleads
  rw [signalsSince_eq htrace] at hworked
  rw [line, htrace, lineAfter_append]
  exact hchange hworked before.line

variable [Console κ]

theorem Leads.tell {before after : Link (Traced σ) κ} {change : Level → Level}
    (hleads : Leads change before after) (notice : Notice) :
    Leads change before (after.tell notice) :=
  ⟨hleads.rests, hleads.trace⟩

variable [Board σ]

theorem drive_transaction (level : Level) (link : Link (Traced σ) κ) :
    (link.drive level).2.transaction = link.transaction := by
  unfold drive
  dsimp only
  split
  · rfl
  · rfl

theorem assertRequest_leads {link : Link (Traced σ) κ}
    (hrests : link.transaction.phase ≠ .announcing) :
    Leads (fun _ => .low) link link.assertRequest.2 := by
  refine ⟨?_, _, (drive_shows .low link).trace, ?_⟩
  · rw [assertRequest, drive_transaction]
    exact hrests
  · intro hworked line
    have hdriven := hworked _ (List.mem_singleton_self _)
    cases hworks : (link.drive .low).1 with
    | true => rfl
    | false =>
        rw [hworks] at hdriven
        cases hdriven

theorem transact_rests {polls : Nat} {mode : Mode} {link after : Link (Traced σ) κ}
    {outcome : Outcome} (hdone : link.transact polls mode = some (outcome, after))
    (hrests : link.transaction.phase ≠ .announcing) :
    after.transaction.phase ≠ .announcing := by
  obtain ⟨actions, hundergoes⟩ := transact_glimpses hdone
  exact hundergoes.rests hrests

/-- No use of a link leaves it between the request to read and the size. -/
theorem Uses.rests {link later : Link (Traced σ) κ} (huses : Uses link later)
    (hrests : link.transaction.phase ≠ .announcing) :
    later.transaction.phase ≠ .announcing := by
  induction huses with
  | refl => exact hrests
  | tail _ huse ih =>
      cases huse with
      | transact hdone => exact transact_rests hdone ih
      | pull => exact (assertRequest_leads ih).rests
      | load payload => exact ih
      | unload => exact ih
      | tell notice => exact ih

/-- **A transaction lets the line go where the master asks to read**, and otherwise leaves it
    alone. -/
theorem transact_leads {polls : Nat} {mode : Mode} {link after : Link (Traced σ) κ}
    {outcome : Outcome} (hdone : link.transact polls mode = some (outcome, after))
    (hrests : link.transaction.phase ≠ .announcing) :
    Leads (fun line => if link.isAskedSince after then .high else line) link after := by
  obtain ⟨actions, hundergoes, hlogged⟩ := transact_logged hdone
  obtain ⟨signals, htrace, -, -, hdriven⟩ := hlogged.trace
  refine ⟨hundergoes.rests hrests, signals, htrace, ?_⟩
  intro hworked line
  rw [lineAfter_of_driven hworked hdriven]
  simp only [hundergoes.release_mem_iff hrests]
  rfl

end Link

namespace Channel

variable {σ κ : Type} [Console κ]

/-! ### Attempts -/

theorem keep_leads {before : Link (Traced σ) κ} {change : Level → Level} {outcome : Outcome}
    {channel : Channel (Traced σ) κ} (hleads : Link.Leads change before channel.link) :
    Link.Leads change before (channel.keep outcome).link := by
  rcases keep_link outcome channel with hkept | hkept
  · rw [hkept]
    exact hleads
  · rw [hkept]
    exact hleads.tell _

theorem sayResult_leads {before : Link (Traced σ) κ} {change : Level → Level} (number : Nat)
    (once : Try) {channel : Channel (Traced σ) κ}
    (hleads : Link.Leads change before channel.link) :
    Link.Leads change before (sayResult number once channel).link := by
  unfold sayResult
  split
  · exact hleads
  · exact hleads.tell _
  · exact hleads.tell _

variable [Board σ]

/-- Whether the master asks to read in the next call. -/
def nextIsAsked (polls : Nat) (channel : Channel (Traced σ) κ) : Bool :=
  (channel.receive polls .blocking).any fun (_, after) => channel.link.isAskedSince after.link

/-- Whether the master asks to read while an attempt is made that finds the channel like this. -/
def isAskedDuring (polls : Nat) (payload : Payload) (channel : Channel (Traced σ) κ) : Bool :=
  (channel.offer payload).nextIsAsked polls ||
    ((channel.offer payload).receive polls .blocking).any fun (first, heard) =>
      first = .sent && heard.nextIsAsked polls

/-- The channel as each attempt finds it. -/
def attemptsFrom (polls : Nat) (payload : Payload) :
    (left number : Nat) → Channel σ κ → List (Channel σ κ)
  | 0, _, _ => []
  | left + 1, number, channel =>
      channel :: match channel.tryOnce polls payload with
        | none => []
        | some (once, after) =>
            if once.failedIn?.isNone then []
            else attemptsFrom polls payload left (number + 1) (sayResult number once after)

def attemptsBegun (polls : Nat) (payload : Payload) (channel : Channel σ κ) :
    List (Channel σ κ) :=
  attemptsFrom polls payload channel.link.config.maxAttempts.toNat 1
    { channel with response := none }

theorem receive_leads {polls : Nat} {channel after : Channel (Traced σ) κ} {outcome : Outcome}
    (hdone : channel.receive polls .blocking = some (outcome, after))
    (hrests : channel.link.transaction.phase ≠ .announcing) :
    Link.Leads (fun line => if channel.nextIsAsked polls then .high else line)
      channel.link after.link := by
  have hasked : channel.nextIsAsked polls = channel.link.isAskedSince after.link := by
    rw [nextIsAsked, hdone]
    rfl
  rw [hasked]
  obtain ⟨link, htransact, hboard⟩ := receive_trace hdone
  rw [channel.link.isAskedSince_congr hboard]
  rw [receive_eq, htransact] at hdone
  cases hdone
  exact keep_leads (Link.transact_leads htransact hrests)

theorem offer_leads (payload : Payload) {channel : Channel (Traced σ) κ}
    (hrests : channel.link.transaction.phase ≠ .announcing) :
    Link.Leads (fun _ => .low) channel.link (channel.offer payload).link := by
  have hloaded : (channel.link.load payload).transaction.phase ≠ .announcing := hrests
  have hpulled := Link.assertRequest_leads hloaded
  exact ⟨hpulled.rests, hpulled.trace⟩

/-- **An attempt pulls the line, and leaves it pulled unless the master asks to read.** -/
theorem tryOnce_leads {polls : Nat} {payload : Payload} {channel after : Channel (Traced σ) κ}
    {once : Try} (honce : channel.tryOnce polls payload = some (once, after))
    (hrests : channel.link.transaction.phase ≠ .announcing) :
    Link.Leads (fun _ => if channel.isAskedDuring polls payload then .high else .low)
      channel.link after.link := by
  have hoffered := offer_leads payload hrests
  unfold tryOnce at honce
  obtain ⟨⟨first, middle⟩, hfirst, honce⟩ := Option.bind_eq_some_iff.mp honce
  have hheard := hoffered.trans (receive_leads hfirst hoffered.rests)
  have hasked : channel.isAskedDuring polls payload =
      ((channel.offer payload).nextIsAsked polls ||
        (decide (first = .sent) && middle.nextIsAsked polls)) := by
    rw [isAskedDuring, hfirst]
    rfl
  rw [hasked]
  dsimp only at honce
  split at honce
  case isTrue hsent =>
    obtain ⟨⟨second, last⟩, hsecond, hend⟩ := Option.bind_eq_some_iff.mp honce
    cases hend
    apply (hheard.trans (receive_leads hsecond hheard.rests)).congr
    intro line
    simp only [Function.comp_apply, hsent, decide_true, Bool.true_and]
    cases (channel.offer payload).nextIsAsked polls <;> cases middle.nextIsAsked polls <;> rfl
  case isFalse hother =>
    cases honce
    apply hheard.congr
    intro line
    simp only [Function.comp_apply, hother, decide_false, Bool.false_and, Bool.or_false]

/-- **Only the last attempt counts.** -/
theorem tries_leads {polls left number : Nat} {payload : Payload}
    {channel after : Channel (Traced σ) κ} {made : List Try}
    (hmade : tries polls payload left number channel = some (made, after))
    (hrests : channel.link.transaction.phase ≠ .announcing) :
    Link.Leads
      (fun line => (attemptsFrom polls payload left number channel).getLast?.elim line fun last =>
        if last.isAskedDuring polls payload then .high else .low)
      channel.link after.link := by
  induction left generalizing number channel made with
  | zero =>
      cases hmade
      exact .nothing hrests
  | succ left ih =>
      obtain ⟨once, middle, honce, hrest⟩ := tries_succ hmade
      have hfirst := tryOnce_leads honce hrests
      rcases hrest with ⟨frame, hframe, rfl, rfl⟩ | ⟨more, hnone, rfl, hmore⟩
      · have hanswered := once.failedIn?_eq_none_iff.mpr ⟨frame, hframe⟩
        apply hfirst.congr
        intro line
        simp [attemptsFrom, honce, hanswered]
      · obtain ⟨leg, hleg⟩ := Try.exists_leg hnone
        have hsaid := sayResult_leads number once hfirst
        apply (hsaid.trans (ih hmore hsaid.rests)).congr
        intro line
        simp only [attemptsFrom, honce, hleg, Option.isNone_some, Bool.false_eq_true, if_false,
          Function.comp_apply]
        rw [List.getLast?_cons]
        cases (attemptsFrom polls payload left (number + 1)
          (sayResult number once middle)).getLast? <;> rfl

/-! ### Requests that were read -/

/-- The call of an attempt in which its request was to be read. -/
def reading? (polls : Nat) (payload : Payload) (channel : Channel (Traced σ) κ) :
    Option Reading :=
  ((channel.offer payload).receive polls .blocking).map fun (first, heard) =>
    ⟨first, (channel.offer payload).link.signalsSince heard.link⟩

theorem readings_of_tries {polls left number : Nat} {payload : Payload}
    {channel after : Channel (Traced σ) κ} {made : List Try}
    (hmade : tries polls payload left number channel = some (made, after)) :
    (readings polls payload left number channel).map some =
      (attemptsFrom polls payload left number channel).map (reading? polls payload) := by
  induction left generalizing number channel made with
  | zero => rfl
  | succ left ih =>
      obtain ⟨once, middle, honce, hrest⟩ := tries_succ hmade
      obtain ⟨heard, hfirst, -⟩ := first_of_tryOnce honce
      have hread : channel.reading? polls payload =
          some ⟨once.first, (channel.offer payload).link.signalsSince heard.link⟩ := by
        rw [reading?, hfirst]
        rfl
      simp only [readings, attemptsFrom, hfirst, honce, List.map_cons, hread]
      rcases hrest with ⟨frame, hframe, rfl, rfl⟩ | ⟨more, hnone, rfl, hmore⟩
      · have hanswered := once.failedIn?_eq_none_iff.mpr ⟨frame, hframe⟩
        simp [hanswered]
      · obtain ⟨leg, hleg⟩ := Try.exists_leg hnone
        simp [hleg, ih hmore]

theorem asked_of_read {polls : Nat} {payload : Payload} {channel : Channel (Traced σ) κ}
    {reading : Reading} (hreading : channel.reading? polls payload = some reading)
    (hsent : reading.outcome = .sent) (hstart : .polled .start ∈ reading.signals) :
    channel.isAskedDuring polls payload = true := by
  obtain ⟨⟨first, heard⟩, hfirst, rfl⟩ := Option.map_eq_some_iff.mp hreading
  obtain ⟨link, htransact, hboard⟩ := receive_trace hfirst
  obtain ⟨actions, hundergoes, hlogged⟩ := Link.transact_logged htransact
  dsimp only at hsent hstart
  have hcalled : .start ∈
      ((channel.offer payload).link.glimpsesSince link).map Glimpse.status := by
    apply hlogged.status_of_polled
    rw [Link.signalsSince, ← hboard]
    exact hstart
  have hasked := hundergoes.asked_of_sent hsent (.inr hcalled)
  have hnext : (channel.offer payload).nextIsAsked polls = true := by
    rw [nextIsAsked, hfirst]
    change (channel.offer payload).link.isAskedSince heard.link = true
    rw [Link.isAskedSince_congr _ hboard]
    exact hasked
  rw [isAskedDuring, hnext, Bool.true_or]

/-- **Where a request leaves the line**, if it was released before and no drive failed: it is
    released again just if the master asked to read while the last attempt was made, or no attempt
    was made. It did ask if the link was called in the call in which the request was read. -/
theorem line_released_iff {board : Traced σ} {console : κ} {config : Config} {polls : Nat}
    {payload : Payload} {channel after : Channel (Traced σ) κ} {result : Except RequestError Unit}
    (hreached : Link.Uses (.fresh board console config) channel.link)
    (hreleased : channel.link.line = .high)
    (hdone : channel.request polls payload.bytes = some (result, after))
    (hworked : ∀ signal ∈ channel.link.signalsSince after.link, signal.isStuck = false) :
    after.link.transaction.outbox = .empty ∧
      (after.link.line = .high ↔
        ∀ last ∈ (channel.attemptsBegun polls payload).getLast?,
          last.isAskedDuring polls payload = true) ∧
      (∀ reading ∈ (channel.readingsMade polls payload).getLast?, reading.outcome = .sent →
        .polled .start ∈ reading.signals → after.link.line = .high) := by
  have hrests : channel.link.transaction.phase ≠ .announcing := hreached.rests Phase.noConfusion
  rw [request_eq] at hdone
  obtain ⟨⟨made, polled⟩, hmade, hend⟩ := Option.map_eq_some_iff.mp hdone
  obtain ⟨hboard, hunloaded⟩ :=
    conclude_board channel.link.diagnostics.signalFailures.count made polled
  dsimp only at hend
  rw [hend] at hboard hunloaded
  have hleads := tries_leads hmade hrests
  have hkept : after.link.line = polled.link.line := by
    rw [Link.line, hboard]
    rfl
  rw [Link.signalsSince, hboard] at hworked
  have hline := hleads.line_eq hworked
  have hiff : after.link.line = .high ↔
      ∀ last ∈ (channel.attemptsBegun polls payload).getLast?,
        last.isAskedDuring polls payload = true := by
    rw [hkept, hline]
    change (channel.attemptsBegun polls payload).getLast?.elim channel.link.line _ = .high ↔ _
    cases (channel.attemptsBegun polls payload).getLast? with
    | none => simpa using hreleased
    | some last => simp
  refine ⟨hunloaded, hiff, ?_⟩
  intro reading hreading hsent hstart
  apply hiff.mpr
  intro last hlast
  have hall := congrArg List.getLast? (readings_of_tries hmade)
  rw [List.getLast?_map, List.getLast?_map] at hall
  change Option.map some (channel.readingsMade polls payload).getLast? =
    Option.map _ (channel.attemptsBegun polls payload).getLast? at hall
  rw [Option.mem_def.mp hreading, Option.mem_def.mp hlast] at hall
  exact asked_of_read (Option.some_inj.mp hall).symm hsent hstart

/-- The controller begins to read and falls silent, goes on when the request is made again, and
    answers it. -/
def stalledRead : List ScriptStep :=
  (MasterScript.reads MasterScript.usualAddress 0).dropLast ++ List.replicate 2 MasterScript.idle ++
    List.replicate 2 ⟨.readOut, none⟩ ++ [⟨.stopped, none⟩] ++
    MasterScript.writes MasterScript.usualAddress noopResponse.bytes

def calledElsewhere : List ScriptStep := [⟨.start, some 0x42⟩]

/-- What became of a request: its result, the level of the line, and whether all drives worked. -/
def lineReport (polls : Nat) (channel : Channel ScriptedBoard Silent) :
    Option (Option Unit × Level × Bool) :=
  (channel.request polls Payload.noop.bytes).map fun (result, after) =>
    (result.toOption, after.link.line,
      decide (∀ signal ∈ channel.link.signalsSince after.link, signal.isStuck = false))

theorem lineReport_eq_some {polls : Nat} {channel : Channel ScriptedBoard Silent}
    {answer : Option Unit} {level : Level}
    (hreport : channel.lineReport polls = some (answer, level, true)) :
    ∃ result after, channel.request polls Payload.noop.bytes = some (result, after) ∧
      result.toOption = answer ∧ after.link.line = level ∧
      ∀ signal ∈ channel.link.signalsSince after.link, signal.isStuck = false := by
  obtain ⟨⟨result, after⟩, hdone, hall⟩ := Option.map_eq_some_iff.mp hreport
  obtain ⟨hresult, hrest⟩ := Prod.mk.inj hall
  obtain ⟨hline, hworked⟩ := Prod.mk.inj hrest
  exact ⟨result, after, hdone, hresult, hline, of_decide_eq_true hworked⟩

/-- A request that the controller does not take up leaves the line pulled, and so does one that it
    reads and answers after a pause. -/
theorem line_left_low :
    (∃ error after, (scripted { maxAttempts := 1 } calledElsewhere).request 20
          Payload.noop.bytes = some (.error error, after) ∧
        (scripted { maxAttempts := 1 } calledElsewhere).link.line = .high ∧
        (∀ signal ∈ (scripted { maxAttempts := 1 } calledElsewhere).link.signalsSince after.link,
          signal.isStuck = false) ∧
        after.link.line = .low) ∧
      ∃ after, (scripted { pollMicros := 700_000 } stalledRead).request 20
          Payload.noop.bytes = some (.ok (), after) ∧
        (scripted { pollMicros := 700_000 } stalledRead).link.line = .high ∧
        (∀ signal ∈ (scripted { pollMicros := 700_000 } stalledRead).link.signalsSince after.link,
          signal.isStuck = false) ∧
        after.link.line = .low := by
  have hrefused : (scripted { maxAttempts := 1 } calledElsewhere).lineReport 20 =
      some (none, .low, true) := by decide
  have hanswered : (scripted { pollMicros := 700_000 } stalledRead).lineReport 20 =
      some (some (), .low, true) := by decide
  constructor
  · obtain ⟨result, after, hdone, hresult, hline, hworked⟩ := lineReport_eq_some hrefused
    cases result with
    | ok value => cases hresult
    | error error => exact ⟨error, after, hdone, rfl, hworked, hline⟩
  · obtain ⟨result, after, hdone, hresult, hline, hworked⟩ := lineReport_eq_some hanswered
    cases result with
    | ok value => exact ⟨after, hdone, rfl, hworked, hline⟩
    | error error => cases hresult

-- The first attempt is answered by an event, and the second one is read.
theorem line_released_after_event :
    ∃ result after, (scripted {} strayEventFirst).request 20 Payload.noop.bytes =
        some (result, after) ∧
      after.link.line = .high ∧
      after.link.transaction.outbox = .empty ∧
      (after.link.line = .high ↔
        ∀ last ∈ ((scripted {} strayEventFirst).attemptsBegun 20 .noop).getLast?,
          last.isAskedDuring 20 .noop = true) ∧
      (∀ reading ∈ ((scripted {} strayEventFirst).readingsMade 20 .noop).getLast?,
        reading.outcome = .sent → .polled .start ∈ reading.signals → after.link.line = .high) := by
  have hreport : (scripted {} strayEventFirst).lineReport 20 = some (some (), .high, true) := by
    decide
  obtain ⟨result, after, hdone, -, hline, hworked⟩ := lineReport_eq_some hreport
  exact ⟨result, after, hdone, hline, line_released_iff .refl rfl hdone hworked⟩

end Channel

end EcLink
