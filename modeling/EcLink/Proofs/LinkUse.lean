import EcLink.Proofs.RequestAccounting

/-!
# What a channel does with its link

All that requests and dialogues do with a link is to carry out transactions, to load and unload it,
to pull the request line, and to tell it something. `Link.Uses` says this once. Two things follow
for every board. The configuration never changes. And **where every transaction comes to an end, so
does everything that is made of them**: from some number of polls on, requests and dialogues have a
result, and it is always the same one.
-/

namespace EcLink

namespace Link

variable {σ κ : Type} [Board σ] [Console κ]

/-! ### Uses of a link -/

/-- One thing that a channel may do with its link. -/
inductive Use : Link σ κ → Link σ κ → Prop
  | transact {polls : Nat} {mode : Mode} {link after : Link σ κ} {outcome : Outcome}
      (hdone : link.transact polls mode = some (outcome, after)) : Use link after
  | load (payload : Payload) (link : Link σ κ) : Use link (link.load payload)
  | unload (link : Link σ κ) : Use link link.unload
  | pull (link : Link σ κ) : Use link link.assertRequest.2
  | tell (notice : Notice) (link : Link σ κ) : Use link (link.tell notice)

abbrev Uses : Link σ κ → Link σ κ → Prop := Relation.ReflTransGen Use

theorem drive_config (level : Level) (link : Link σ κ) :
    (link.drive level).2.config = link.config := by
  unfold drive
  dsimp only
  split
  · rfl
  · rfl

theorem Move.config_eq {before after : Link σ κ} (hmove : Move before after) :
    after.config = before.config := by
  cases hmove with
  | act action =>
      cases action with
      | release => exact drive_config .high before
      | _ => rfl
  | _ => rfl

theorem Use.config_eq {before after : Link σ κ} (huse : Use before after) :
    after.config = before.config := by
  cases huse with
  | transact hdone =>
      apply (transact_moves hdone).lift
      · intro link
        rfl
      · intro first second third hearlier hlater
        exact hlater.trans hearlier
      · intro before after hmove
        exact hmove.config_eq
  | pull => exact drive_config .low before
  | _ => rfl

/-- **Whatever is done with a link, its configuration stays.** -/
theorem Uses.config_eq {before after : Link σ κ} (huses : Uses before after) :
    after.config = before.config := by
  induction huses with
  | refl => rfl
  | tail _ huse ih => exact huse.config_eq.trans ih

/-- Whatever is done with the link, the next transaction comes to an end. -/
def AlwaysReturns (link : Link σ κ) : Prop :=
  ∀ later, Uses link later → ∀ mode, ∃ polls done, later.transact polls mode = some done

theorem AlwaysReturns.of_uses {link later : Link σ κ} (hreturns : link.AlwaysReturns)
    (huses : Uses link later) : later.AlwaysReturns := by
  intro last hmore
  exact hreturns last (huses.trans hmore)

end Link

namespace Channel

variable {σ κ : Type} [Board σ] [Console κ]

theorem keep_uses (outcome : Outcome) (channel : Channel σ κ) :
    Link.Uses channel.link (channel.keep outcome).link := by
  rcases keep_link outcome channel with hkept | hkept
  · rw [hkept]
  · rw [hkept]
    exact .single (.tell _ _)

theorem sayResult_uses (number : Nat) (once : Try) (channel : Channel σ κ) :
    Link.Uses channel.link (sayResult number once channel).link := by
  unfold sayResult
  split
  · exact .refl
  · exact .single (.tell _ _)
  · exact .single (.tell _ _)

theorem offer_uses (payload : Payload) (channel : Channel σ κ) :
    Link.Uses channel.link (channel.offer payload).link :=
  (Relation.ReflTransGen.single (.load payload channel.link)).tail (.pull _)

theorem receive_uses {polls : Nat} {mode : Mode} {channel after : Channel σ κ} {outcome : Outcome}
    (hdone : channel.receive polls mode = some (outcome, after)) :
    Link.Uses channel.link after.link := by
  rw [receive_eq] at hdone
  obtain ⟨⟨outcome', link⟩, htransact, hend⟩ := Option.map_eq_some_iff.mp hdone
  cases hend
  exact (keep_uses outcome { channel with link }).head (.transact htransact)

theorem tryOnce_uses {polls : Nat} {payload : Payload} {channel after : Channel σ κ} {once : Try}
    (honce : channel.tryOnce polls payload = some (once, after)) :
    Link.Uses channel.link after.link := by
  apply (offer_uses payload channel).trans
  unfold tryOnce at honce
  obtain ⟨⟨first, middle⟩, hfirst, honce⟩ := Option.bind_eq_some_iff.mp honce
  dsimp only at honce
  split at honce
  case isTrue hsent =>
    obtain ⟨⟨second, last⟩, hsecond, hend⟩ := Option.bind_eq_some_iff.mp honce
    cases hend
    exact (receive_uses hfirst).trans (receive_uses hsecond)
  case isFalse hother =>
    cases honce
    exact receive_uses hfirst

theorem tries_uses {polls left number : Nat} {payload : Payload} {channel after : Channel σ κ}
    {made : List Try} (hmade : tries polls payload left number channel = some (made, after)) :
    Link.Uses channel.link after.link := by
  induction left generalizing number channel made with
  | zero =>
      cases hmade
      exact .refl
  | succ left ih =>
      obtain ⟨once, middle, honce, ⟨frame, hframe, rfl, rfl⟩ | ⟨more, hnone, rfl, hmore⟩⟩ :=
        tries_succ hmade
      · exact tryOnce_uses honce
      · exact ((tryOnce_uses honce).trans (sayResult_uses number once middle)).trans (ih hmore)

theorem conclude_uses (failuresBefore : Nat) (made : List Try) (last : Channel σ κ) :
    Link.Uses last.link (conclude failuresBefore made last).2.link := by
  have hunloaded : Link.Uses last.link last.link.unload := .single (.unload last.link)
  unfold conclude
  split
  · exact hunloaded
  · exact hunloaded.tail (.tell _ _)

theorem request_uses {polls : Nat} {bytes : List UInt8} {channel after : Channel σ κ}
    {result : Except RequestError Unit}
    (hdone : channel.request polls bytes = some (result, after)) :
    Link.Uses channel.link after.link := by
  cases hpayload : Payload.ofBytes? bytes with
  | none =>
      rw [request_of_invalid polls hpayload] at hdone
      cases hdone
      exact .refl
  | some payload =>
      obtain rfl := Payload.ofBytes?_eq_some_iff.mp hpayload
      rw [request_eq] at hdone
      obtain ⟨⟨made, last⟩, hmade, hend⟩ := Option.map_eq_some_iff.mp hdone
      have hconcluded :=
        conclude_uses channel.link.diagnostics.signalFailures.count made last
      dsimp only at hend
      rw [hend] at hconcluded
      exact (tries_uses hmade).trans hconcluded

/-- **A dialogue uses the link as its requests do.** -/
theorem converse_uses {α : Type} {polls : Nat} {dialogue : Dialogue α}
    {channel after : Channel σ κ} {result : α}
    (hdone : channel.converse polls dialogue = some (result, after)) :
    Link.Uses channel.link after.link := by
  induction dialogue generalizing channel with
  | done =>
      cases hdone
      exact .refl
  | request bytes next ih =>
      obtain ⟨⟨reply, middle⟩, hrequest, hdone⟩ := Option.bind_eq_some_iff.mp hdone
      exact (request_uses hrequest).trans (ih reply hdone)
  | takeResponse next ih =>
      have hlater := ih channel.takeResponse.1 hdone
      exact hlater
  | tell notice next ih => exact (ih hdone).head (.tell notice channel.link)

end Channel

/-! ### Coming to a result -/

/-- With polls enough there is a result, and from then on their number does not matter. -/
def Returns {α : Type} (run : Nat → Option α) : Prop :=
  ∃ least result, ∀ polls, least ≤ polls → run polls = some result

namespace Returns

variable {α β : Type}

theorem pure (result : α) : Returns fun _ => some result := by
  refine ⟨0, result, ?_⟩
  intro polls _
  rfl

/-- What follows has to come to a result only where the first part led. -/
theorem bind {run : Nat → Option α} {next : Nat → α → Option β} (hrun : Returns run)
    (hnext : ∀ polls result, run polls = some result → Returns fun polls => next polls result) :
    Returns fun polls => (run polls).bind (next polls) := by
  obtain ⟨least, result, hrun⟩ := hrun
  obtain ⟨more, final, hfinal⟩ := hnext least result (hrun least (Nat.le_refl least))
  refine ⟨max least more, final, ?_⟩
  intro polls hpolls
  have hfirst : run polls = some result := by
    apply hrun
    omega
  dsimp only
  rw [hfirst, Option.bind_some]
  apply hfinal
  omega

theorem map {run : Nat → Option α} (hrun : Returns run) (change : α → β) :
    Returns fun polls => (run polls).map change := by
  obtain ⟨least, result, hrun⟩ := hrun
  refine ⟨least, change result, ?_⟩
  intro polls hpolls
  dsimp only
  rw [hrun polls hpolls, Option.map_some]

end Returns

theorem Link.transact_returns {σ κ : Type} [Board σ] [Console κ] {link : Link σ κ}
    (hreturns : link.AlwaysReturns) (mode : Mode) :
    Returns fun polls => link.transact polls mode := by
  obtain ⟨least, ⟨outcome, after⟩, hdone⟩ := hreturns link .refl mode
  refine ⟨least, (outcome, after), ?_⟩
  intro polls hpolls
  exact Link.transact_mono hpolls hdone

namespace Channel

variable {σ κ : Type} [Board σ] [Console κ] {channel : Channel σ κ}

theorem receive_returns (hreturns : channel.link.AlwaysReturns) (mode : Mode) :
    Returns fun polls => channel.receive polls mode := by
  simp only [receive_eq]
  exact (Link.transact_returns hreturns mode).map _

theorem tryOnce_returns (payload : Payload) (hreturns : channel.link.AlwaysReturns) :
    Returns fun polls => channel.tryOnce polls payload := by
  have hoffered := hreturns.of_uses (offer_uses payload channel)
  unfold tryOnce
  apply (receive_returns hoffered .blocking).bind
  rintro polls ⟨first, middle⟩ hfirst
  dsimp only
  split
  · have hmiddle := hoffered.of_uses (receive_uses hfirst)
    exact (receive_returns hmiddle .blocking).bind fun _ _ _ => .pure _
  · exact .pure _

theorem tries_returns (payload : Payload) (left number : Nat)
    (hreturns : channel.link.AlwaysReturns) :
    Returns fun polls => tries polls payload left number channel := by
  induction left generalizing number channel with
  | zero => exact .pure _
  | succ left ih =>
      simp only [tries]
      apply (tryOnce_returns payload hreturns).bind
      rintro polls ⟨once, middle⟩ honce
      dsimp only
      split
      · exact .pure _
      · have hsaid := (hreturns.of_uses (tryOnce_uses honce)).of_uses
          (sayResult_uses number once middle)
        exact (ih (number + 1) hsaid).bind fun _ _ _ => .pure _

theorem request_returns (bytes : List UInt8) (hreturns : channel.link.AlwaysReturns) :
    Returns fun polls => channel.request polls bytes := by
  cases hpayload : Payload.ofBytes? bytes with
  | none =>
      simp only [request_of_invalid _ hpayload]
      exact .pure _
  | some payload =>
      obtain rfl := Payload.ofBytes?_eq_some_iff.mp hpayload
      have hcleared : ({ channel with response := none } : Channel σ κ).link.AlwaysReturns :=
        hreturns
      simp only [request_eq]
      exact (tries_returns payload _ 1 hcleared).map _

/-- **A dialogue comes to its end where transactions do.** -/
theorem converse_returns {α : Type} (dialogue : Dialogue α)
    (hreturns : channel.link.AlwaysReturns) :
    Returns fun polls => channel.converse polls dialogue := by
  induction dialogue generalizing channel with
  | done result => exact .pure _
  | request bytes next ih =>
      apply (request_returns bytes hreturns).bind
      rintro polls ⟨reply, middle⟩ hrequest
      exact ih reply (hreturns.of_uses (request_uses hrequest))
  | takeResponse next ih =>
      have htaken : channel.takeResponse.2.link.AlwaysReturns := hreturns
      exact ih channel.takeResponse.1 htaken
  | tell notice next ih =>
      have htold : (channel.tell notice).link.AlwaysReturns :=
        hreturns.of_uses (.single (.tell notice channel.link))
      exact ih htold

end Channel

end EcLink
