import EcLink.Proofs.EventDispatch
import EcLink.Proofs.LinkUse

/-!
# What start-up consists of

Start-up drains what waits, makes requests of its own, and brings the registered peripherals up. Its
own requests are **one dialogue**, `SystemRequest.opening`, and so start-up is a call, a dialogue,
and a dialogue for every peripheral, with a round of dispatching after each of them. `StartsUp`
writes this down, with the frames that come in during each request, and every start-up that comes to
its end is one of these. Every start-up does come to its end on a board on which transactions do.
-/

namespace EcLink

/-! ### The requests of start-up as one dialogue -/

namespace SystemRequest

/-- Ask for something, and report a failure. -/
def reporting (word : RequestError → Notice) (asking : Dialogue (Except RequestError Unit)) :
    Dialogue Unit :=
  asking.bind fun result =>
    match result with
    | .ok () => .done ()
    | .error error => .say (word error)

def reportingVersion : Dialogue Unit :=
  firmwareVersion.bind fun result =>
    match result with
    | .ok (some version) => .say (.firmware version.payload)
    | .ok none => .say .firmwareUnknown
    | .error error => .say (.firmwareFailed error)

def enablingEvents (config : Config) : Dialogue Unit :=
  if config.globalEvents then reporting .globalEventsFailed (globalEvents true) else .done ()

def enablingSources : List UInt32 → Dialogue Unit
  | [] => .done ()
  | source :: later =>
      (reporting (.sourceFailed source) (eventReporting source true)).bind fun _ =>
        enablingSources later

/-- All that a host has to say before it brings its peripherals up. -/
def opening (config : Config) : Dialogue Unit :=
  (reporting .noopFailed noop).bind fun _ =>
    (enablingEvents config).bind fun _ =>
      reportingVersion.bind fun _ =>
        enablingSources (Host.sources config.eventReporting)

end SystemRequest

namespace Host

variable {σ κ π δ : Type} [Board σ] [Console κ]

/-- Hold a dialogue that comes to nothing but its effects, leaving the events parked. -/
def hold (polls : Nat) (dialogue : Dialogue Unit) (host : Host σ κ π δ) : Option (Host σ κ π δ) :=
  (host.converseQuietly polls dialogue).map Prod.snd

theorem converseQuietly_bind {α β : Type} (polls : Nat) (first : Dialogue α)
    (after : α → Dialogue β) (host : Host σ κ π δ) :
    host.converseQuietly polls (first.bind after) =
      (host.converseQuietly polls first).bind fun (result, host) =>
        host.converseQuietly polls (after result) := by
  have hrun := Dialogue.run_bind (Channel.requester polls) first after host.channel
  unfold converseQuietly Channel.converse
  rw [hrun]
  cases first.run (Channel.requester polls) host.channel with
  | none => rfl
  | some done => rfl

theorem hold_bind (polls : Nat) (first : Dialogue Unit) (after : Unit → Dialogue Unit)
    (host : Host σ κ π δ) :
    host.hold polls (first.bind after) = (host.hold polls first).bind (hold polls (after ())) := by
  unfold hold
  rw [converseQuietly_bind]
  cases host.converseQuietly polls first with
  | none => rfl
  | some done => rfl

theorem hold_reporting (polls : Nat) (word : RequestError → Notice)
    (asking : Dialogue (Except RequestError Unit)) (host : Host σ κ π δ) :
    host.hold polls (SystemRequest.reporting word asking) =
      (host.converseQuietly polls asking).map fun (result, host) =>
        host.reportFailure word result := by
  unfold hold SystemRequest.reporting
  rw [converseQuietly_bind]
  cases host.converseQuietly polls asking with
  | none => rfl
  | some done =>
      rcases done with ⟨result, middle⟩
      cases result with
      | ok => rfl
      | error => rfl

theorem ping_eq (polls : Nat) (host : Host σ κ π δ) :
    host.ping polls = host.hold polls (SystemRequest.reporting .noopFailed SystemRequest.noop) := by
  rw [hold_reporting]
  unfold ping
  cases host.converseQuietly polls SystemRequest.noop <;> rfl

theorem enableGlobalEvents_eq (polls : Nat) (host : Host σ κ π δ) :
    host.enableGlobalEvents polls =
      host.hold polls (SystemRequest.enablingEvents host.config) := by
  unfold enableGlobalEvents SystemRequest.enablingEvents
  split
  · rw [hold_reporting]
    cases host.converseQuietly polls (SystemRequest.globalEvents true) <;> rfl
  · rfl

theorem reportFirmware_eq (polls : Nat) (host : Host σ κ π δ) :
    host.reportFirmware polls = host.hold polls SystemRequest.reportingVersion := by
  unfold reportFirmware hold SystemRequest.reportingVersion
  rw [converseQuietly_bind]
  cases host.converseQuietly polls SystemRequest.firmwareVersion with
  | none => rfl
  | some done =>
      rcases done with ⟨result, middle⟩
      rcases result with error | version
      · rfl
      · cases version <;> rfl

theorem enableSources_eq (polls : Nat) (sources : List UInt32) (host : Host σ κ π δ) :
    sources.foldlM (enableSource polls) host =
      host.hold polls (SystemRequest.enablingSources sources) := by
  induction sources generalizing host with
  | nil => rfl
  | cons source later ih =>
      have hsource : host.enableSource polls source = host.hold polls
          (SystemRequest.reporting (.sourceFailed source)
            (SystemRequest.eventReporting source true)) := by
        rw [hold_reporting]
        unfold enableSource
        cases host.converseQuietly polls (SystemRequest.eventReporting source true) <;> rfl
      rw [List.foldlM_cons, SystemRequest.enablingSources, hold_bind, hsource]
      apply Option.bind_congr
      intro middle _
      exact ih middle

theorem hold_uses {polls : Nat} {dialogue : Dialogue Unit} {host after : Host σ κ π δ}
    (hdone : host.hold polls dialogue = some after) :
    Link.Uses host.channel.link after.channel.link := by
  obtain ⟨⟨result, last⟩, hquiet, hend⟩ := Option.map_eq_some_iff.mp hdone
  obtain ⟨⟨result', channel⟩, hconverse, hquiet⟩ := Option.bind_eq_some_iff.mp hquiet
  cases hquiet
  cases hend
  exact Channel.converse_uses hconverse

theorem hold_returns {host : Host σ κ π δ} (dialogue : Dialogue Unit)
    (hreturns : host.channel.link.AlwaysReturns) :
    Returns fun polls => host.hold polls dialogue := by
  unfold hold converseQuietly
  apply Returns.map
  exact (Channel.converse_returns dialogue hreturns).bind fun _ _ _ => .pure _

theorem hold_config {polls : Nat} {dialogue : Dialogue Unit} {host after : Host σ κ π δ}
    (hdone : host.hold polls dialogue = some after) : after.config = host.config :=
  (hold_uses hdone).config_eq

/-- The configuration is looked up between the requests, but it is that of the beginning. -/
theorem opening_eq (polls : Nat) (host : Host σ κ π δ) :
    ((host.ping polls).bind fun host => (host.enableGlobalEvents polls).bind fun host =>
      (host.reportFirmware polls).bind fun host =>
        (sources host.config.eventReporting).foldlM (enableSource polls) host) =
      host.hold polls (SystemRequest.opening host.config) := by
  rw [SystemRequest.opening, hold_bind, ping_eq]
  apply Option.bind_congr
  intro pinged hpinged
  rw [hold_bind, enableGlobalEvents_eq, hold_config hpinged]
  apply Option.bind_congr
  intro enabled henabled
  rw [hold_bind, reportFirmware_eq]
  apply Option.bind_congr
  intro reported hreported
  rw [enableSources_eq, hold_config hreported, hold_config henabled, hold_config hpinged]

variable [Peripherals π δ]

/-- **Start-up is a flush, a dialogue, and the bring-ups.** -/
theorem start_eq (polls : Nat) (host : Host σ κ π δ) :
    host.start polls =
      (host.flush polls).bind fun host =>
        (host.hold polls (SystemRequest.opening host.config)).bind fun host =>
          (messageTypes.foldlM (bringUp polls) host.dispatchPending).map (tell .initialized) := by
  unfold start
  apply Option.bind_congr
  intro flushed _
  rw [← opening_eq]
  simp only [Option.bind_eq_bind, Option.bind_assoc, Option.map_eq_bind]
  rfl

end Host

/-! ### What comes in meanwhile -/

/-- What comes in between two rounds of dispatching: the events that wait at first, and the frames
    of each call. -/
structure Stretch where
  waiting : List Frame
  incoming : List (List Frame)
  deriving DecidableEq, Repr

namespace Stretch

/-- The events, in the order of arrival. -/
def events (stretch : Stretch) : List Frame :=
  stretch.waiting ++ EcLink.events stretch.incoming.flatten

/-- The events that wait at the end. -/
def parked (stretch : Stretch) : List Frame := stretch.events.rtake pendingCapacity

/-- The events that were pushed out. -/
def evicted (stretch : Stretch) : List Frame := stretch.events.rdrop pendingCapacity

/-- What the peripherals are handed in the end. -/
def delivered {δ : Type} (directory : Directory δ) (stretch : Stretch) : List (δ × Event) :=
  stretch.parked.filterMap directory.route

end Stretch

namespace Channel

variable {σ κ : Type} [Board σ] [Console κ]

/-- The frames that come in during each request of a dialogue. -/
def incoming {α : Type} (polls : Nat) : Dialogue α → Channel σ κ → List (List Frame)
  | .done _, _ => []
  | .request bytes next, channel =>
      match channel.request polls bytes with
      | none => []
      | some (reply, after) =>
          (channel.arrivals polls (.request bytes)).map Arrival.frame ::
            incoming polls (next reply) after
  | .takeResponse next, channel =>
      incoming polls (next channel.takeResponse.1) channel.takeResponse.2
  | .tell notice next, channel => incoming polls next (channel.tell notice)

theorem request_pending {polls : Nat} {bytes : List UInt8} {channel after : Channel σ κ}
    {result : Except RequestError Unit}
    (hdone : channel.request polls bytes = some (result, after)) :
    after.pending = channel.pending.parkAll
      (events ((channel.arrivals polls (.request bytes)).map Arrival.frame)) := by
  cases hpayload : Payload.ofBytes? bytes with
  | none =>
      rw [request_of_invalid polls hpayload] at hdone
      cases hdone
      simp [arrivals, hpayload, events, Pending.parkAll]
  | some payload =>
      obtain rfl := Payload.ofBytes?_eq_some_iff.mp hpayload
      obtain ⟨made, last, hmade, -, htook⟩ := request_took hdone
      have hframes : (made.filterMap Try.arrival?).map Arrival.frame =
          made.filterMap Try.delivered? := by
        rw [List.map_filterMap]
        congr 1
        funext once
        simp [Try.arrival?, Function.comp_def]
      rw [htook.pending]
      simp only [arrivals, hpayload, Option.bind_some, hmade, hframes]

theorem converse_pending {α : Type} {polls : Nat} {dialogue : Dialogue α}
    {channel after : Channel σ κ} {result : α}
    (hdone : channel.converse polls dialogue = some (result, after)) :
    after.pending = channel.pending.parkAll (events (channel.incoming polls dialogue).flatten) := by
  induction dialogue generalizing channel with
  | done =>
      cases hdone
      rfl
  | request bytes next ih =>
      obtain ⟨⟨reply, middle⟩, hrequest, hdone⟩ := Option.bind_eq_some_iff.mp hdone
      have hmiddle : channel.request polls bytes = some (reply, middle) := hrequest
      have hlater := ih reply hdone
      rw [request_pending hmiddle] at hlater
      rw [hlater, incoming, hmiddle]
      simp only [List.flatten_cons, events_append, Pending.parkAll, List.foldl_append]
  | takeResponse next ih => exact ih channel.takeResponse.1 hdone
  | tell notice next ih => exact ih hdone

/-- **What waits after a dialogue** are the last eight of all the events until then. -/
theorem converse_parks {α : Type} {polls : Nat} {dialogue : Dialogue α}
    {channel after : Channel σ κ} {result : α}
    (hdone : channel.converse polls dialogue = some (result, after)) :
    after.pending.frames =
      (Stretch.mk channel.pending.frames (channel.incoming polls dialogue)).parked := by
  rw [converse_pending hdone, Pending.frames_parkAll]
  rfl

theorem receive_parks {polls : Nat} {mode : Mode} {channel after : Channel σ κ} {outcome : Outcome}
    (hdone : channel.receive polls mode = some (outcome, after)) :
    after.pending.frames =
      (Stretch.mk channel.pending.frames [outcome.frame?.toList]).parked := by
  rw [(receive_took hdone).pending, Pending.frames_parkAll, Stretch.parked, Stretch.events,
    List.flatten_singleton]

end Channel

/-! ### The course of start-up -/

/-- How the owner of a message type was brought up, and what came in meanwhile. -/
structure Raised (δ : Type) where
  messageType : UInt8
  owner : δ
  stretch : Stretch

namespace Host

variable {σ κ π δ : Type} [Console κ] [Peripherals π δ]

/-- A host after a round of dispatching at the end of a stretch. -/
def dispatched (channel : Channel σ κ) (stretch : Stretch) (host : Host σ κ π δ) :
    Host σ κ π δ :=
  (host.withEmptied channel).handled (stretch.delivered host.directory)

theorem dispatchPending_of_parked {channel : Channel σ κ} {stretch : Stretch}
    (hparked : channel.pending.frames = stretch.parked) (host : Host σ κ π δ) :
    { host with channel }.dispatchPending = host.dispatched channel stretch := by
  rw [dispatchPending_eq]
  dsimp only
  rw [hparked]
  rfl

/-- A failure of the flush is worth a notice; that nothing came is none. -/
def sayFlush (outcome : Outcome) (channel : Channel σ κ) : Channel σ κ :=
  match outcome with
  | .failed fault => channel.tell (.flushFailed fault)
  | _ => channel

theorem sayFlush_pending (outcome : Outcome) (channel : Channel σ κ) :
    (sayFlush outcome channel : Channel σ κ).pending = channel.pending := by
  unfold sayFlush
  split <;> rfl

theorem sayFlush_config (outcome : Outcome) (channel : Channel σ κ) :
    (sayFlush outcome channel : Channel σ κ).link.config = channel.link.config := by
  unfold sayFlush
  split <;> rfl

variable [Board σ]

/-- The bring-ups of the owners of these message types, one after the other. While a peripheral is
    brought up there is **only the channel**; what it leaves of all peripherals is the state in
    which these are then handed the events. -/
inductive BringsUp (polls : Nat) :
    List UInt8 → List (Raised δ) → Host σ κ π δ → Host σ κ π δ → Prop
  | done (host : Host σ κ π δ) : BringsUp polls [] [] host host
  | nobody {messageType : UInt8} {later : List UInt8} {raised : List (Raised δ)}
      {host after : Host σ κ π δ} (hnobody : host.directory.owner? messageType = none)
      (hlater : BringsUp polls later raised host after) :
      BringsUp polls (messageType :: later) raised host after
  | owned {messageType : UInt8} {later : List UInt8} {raised : List (Raised δ)} {owner : δ}
      {host after : Host σ κ π δ} {devices : π} {channel : Channel σ κ} {stretch : Stretch}
      (howner : host.directory.owner? messageType = some owner)
      (hconverse : host.channel.converse polls (Peripherals.bringUp owner host.devices) =
        some (devices, channel))
      (hstretch : stretch =
        ⟨[], host.channel.incoming polls (Peripherals.bringUp owner host.devices)⟩)
      (hparked : channel.pending.frames = stretch.parked)
      (hlater : BringsUp polls later raised ({ host with devices }.dispatched channel stretch)
        after) :
      BringsUp polls (messageType :: later) (⟨messageType, owner, stretch⟩ :: raised) host after

/-- A whole start-up: the flush, the requests of the host, and the bring-ups, with what came in
    during each of these. -/
inductive StartsUp (polls : Nat) :
    Stretch → Stretch → List (Raised δ) → Host σ κ π δ → Host σ κ π δ → Prop
  | intro {flushed opened : Stretch} {raised : List (Raised δ)} {host ready last : Host σ κ π δ}
      {outcome : Outcome} {drained asked : Channel σ κ}
      (hreceive : host.channel.receive polls .nonBlocking = some (outcome, drained))
      (hflushed : flushed = ⟨host.channel.pending.frames, [outcome.frame?.toList]⟩)
      (hdrained : drained.pending.frames = flushed.parked)
      (hready : ready = host.dispatched (sayFlush outcome drained) flushed)
      (hconverse : ready.channel.converse polls (SystemRequest.opening host.config) =
        some ((), asked))
      (hopened : opened =
        ⟨[], ready.channel.incoming polls (SystemRequest.opening host.config)⟩)
      (hasked : asked.pending.frames = opened.parked)
      (hraised : BringsUp polls messageTypes raised (ready.dispatched asked opened) last) :
      StartsUp polls flushed opened raised host (last.tell .initialized)

theorem bringUp_owned {polls : Nat} {messageType : UInt8} {owner : δ} {host after : Host σ κ π δ}
    (howner : host.directory.owner? messageType = some owner)
    (hempty : host.channel.pending = .empty) (hdone : host.bringUp polls messageType = some after) :
    ∃ devices channel stretch,
      host.channel.converse polls (Peripherals.bringUp owner host.devices) =
        some (devices, channel) ∧
      stretch = ⟨[], host.channel.incoming polls (Peripherals.bringUp owner host.devices)⟩ ∧
      channel.pending.frames = stretch.parked ∧
      after = { host with devices }.dispatched channel stretch := by
  unfold bringUp at hdone
  rw [howner] at hdone
  obtain ⟨⟨devices, middle⟩, hquiet, hend⟩ := Option.bind_eq_some_iff.mp hdone
  obtain ⟨⟨devices', channel⟩, hconverse, hquiet⟩ := Option.bind_eq_some_iff.mp hquiet
  cases hquiet
  cases hend
  have hparked := Channel.converse_parks hconverse
  rw [hempty] at hparked
  exact ⟨devices, channel, _, hconverse, rfl, hparked,
    dispatchPending_of_parked hparked { host with devices }⟩

theorem bringsUp_of_foldlM {polls : Nat} {types : List UInt8} {host after : Host σ κ π δ}
    (hdone : types.foldlM (bringUp polls) host = some after)
    (hempty : host.channel.pending = .empty) :
    ∃ raised, BringsUp polls types raised host after := by
  induction types generalizing host with
  | nil =>
      cases hdone
      exact ⟨[], .done _⟩
  | cons messageType later ih =>
      rw [List.foldlM_cons] at hdone
      obtain ⟨middle, hfirst, hdone⟩ := Option.bind_eq_some_iff.mp hdone
      cases howner : host.directory.owner? messageType with
      | none =>
          unfold bringUp at hfirst
          rw [howner] at hfirst
          cases hfirst
          obtain ⟨raised, hlater⟩ := ih hdone hempty
          exact ⟨raised, .nobody howner hlater⟩
      | some owner =>
          obtain ⟨devices, channel, stretch, hconverse, hstretch, hparked, rfl⟩ :=
            bringUp_owned howner hempty hfirst
          obtain ⟨raised, hlater⟩ := ih hdone rfl
          exact ⟨_, .owned howner hconverse hstretch hparked hlater⟩

theorem flush_eq (polls : Nat) (host : Host σ κ π δ) :
    host.flush polls =
      (host.channel.receive polls .nonBlocking).map fun (outcome, drained) =>
        host.dispatched (sayFlush outcome drained)
          ⟨host.channel.pending.frames, [outcome.frame?.toList]⟩ := by
  unfold flush receiveQuietly
  cases hreceive : host.channel.receive polls .nonBlocking with
  | none => rfl
  | some done =>
      rcases done with ⟨outcome, drained⟩
      have hparked := Channel.receive_parks hreceive
      rw [← sayFlush_pending outcome drained] at hparked
      have hdispatched := dispatchPending_of_parked hparked host
      rw [Option.map_some]
      dsimp only
      rw [← hdispatched]
      cases outcome <;> rfl

/-- **Every start-up that comes to its end takes this course.** -/
theorem start_startsUp {polls : Nat} {host after : Host σ κ π δ}
    (hdone : host.start polls = some after) :
    ∃ flushed opened raised, StartsUp polls flushed opened raised host after := by
  rw [start_eq] at hdone
  obtain ⟨ready, hflush, hdone⟩ := Option.bind_eq_some_iff.mp hdone
  obtain ⟨talked, hhold, hdone⟩ := Option.bind_eq_some_iff.mp hdone
  obtain ⟨last, hbringUps, rfl⟩ := Option.map_eq_some_iff.mp hdone
  obtain ⟨⟨result, middle⟩, hquiet, hend⟩ := Option.map_eq_some_iff.mp hhold
  obtain ⟨⟨result', asked⟩, hconverse, hquiet⟩ := Option.bind_eq_some_iff.mp hquiet
  cases hquiet
  cases hend
  rw [flush_eq] at hflush
  obtain ⟨⟨outcome, drained⟩, hreceive, hready⟩ := Option.map_eq_some_iff.mp hflush
  have hdrained := Channel.receive_parks hreceive
  have hempty : ready.channel.pending = .empty := by
    rw [← hready]
    rfl
  have hparked := Channel.converse_parks hconverse
  rw [hempty] at hparked
  rw [dispatchPending_of_parked hparked ready] at hbringUps
  obtain ⟨raised, hraised⟩ := bringsUp_of_foldlM hbringUps rfl
  have hconfig : ready.config = host.config := by
    rw [← hready]
    exact (sayFlush_config outcome drained).trans (Channel.receive_uses hreceive).config_eq
  rw [hconfig] at hconverse hraised
  rw [hconfig] at hparked
  exact ⟨_, _, raised, .intro hreceive rfl hdrained hready.symm hconverse rfl hparked
    hraised⟩

/-! ### Coming to the end -/

theorem handled_uses (calls : List (δ × Event)) (host : Host σ κ π δ) :
    Link.Uses host.channel.link (host.handled calls).channel.link := by
  have htold : ∀ (notices : List Notice) (link : Link σ κ),
      Link.Uses link { link with console := Console.tellAll notices link.console } := by
    intro notices
    induction notices with
    | nil =>
        intro link
        exact .refl
    | cons notice later ih =>
        intro link
        exact (ih (link.tell notice)).head (.tell notice link)
  exact htold (handleAll calls host.devices).2 host.channel.link

theorem dispatchPending_uses (host : Host σ κ π δ) :
    Link.Uses host.channel.link host.dispatchPending.channel.link := by
  rw [dispatchPending_eq]
  exact handled_uses _ (host.withEmptied host.channel)

theorem flush_returns {host : Host σ κ π δ} (hreturns : host.channel.link.AlwaysReturns) :
    Returns fun polls => host.flush polls := by
  unfold flush receiveQuietly
  apply Returns.bind
  · exact (Channel.receive_returns hreturns .nonBlocking).bind fun _ _ _ => .pure _
  · rintro polls ⟨outcome, middle⟩ _
    cases outcome <;> exact .pure _

theorem flush_uses {polls : Nat} {host after : Host σ κ π δ}
    (hdone : host.flush polls = some after) :
    Link.Uses host.channel.link after.channel.link := by
  rw [flush_eq] at hdone
  obtain ⟨⟨outcome, drained⟩, hreceive, rfl⟩ := Option.map_eq_some_iff.mp hdone
  have hsaid : Link.Uses drained.link (sayFlush outcome drained).link := by
    unfold sayFlush
    split
    · exact .single (.tell _ _)
    · exact .refl
  exact ((Channel.receive_uses hreceive).trans hsaid).trans
    (handled_uses _ (host.withEmptied (sayFlush outcome drained)))

theorem bringUp_returns {host : Host σ κ π δ} (messageType : UInt8)
    (hreturns : host.channel.link.AlwaysReturns) :
    Returns fun polls => host.bringUp polls messageType := by
  unfold bringUp converseQuietly
  split
  · exact .pure _
  · apply Returns.bind
    · exact (Channel.converse_returns _ hreturns).bind fun _ _ _ => .pure _
    · rintro polls ⟨devices, middle⟩ _
      exact .pure _

theorem bringUp_uses {polls : Nat} {messageType : UInt8} {host after : Host σ κ π δ}
    (hdone : host.bringUp polls messageType = some after) :
    Link.Uses host.channel.link after.channel.link := by
  unfold bringUp at hdone
  split at hdone
  · cases hdone
    exact .refl
  · obtain ⟨⟨devices, middle⟩, hquiet, hend⟩ := Option.bind_eq_some_iff.mp hdone
    obtain ⟨⟨devices', channel⟩, hconverse, hquiet⟩ := Option.bind_eq_some_iff.mp hquiet
    cases hquiet
    cases hend
    exact (Channel.converse_uses hconverse).trans
      (dispatchPending_uses { host with channel, devices })

theorem bringUps_return {host : Host σ κ π δ} (types : List UInt8)
    (hreturns : host.channel.link.AlwaysReturns) :
    Returns fun polls => types.foldlM (bringUp polls) host := by
  induction types generalizing host with
  | nil => exact .pure _
  | cons messageType later ih =>
      simp only [List.foldlM_cons]
      apply (bringUp_returns messageType hreturns).bind
      intro polls middle hfirst
      exact ih (hreturns.of_uses (bringUp_uses hfirst))

/-- **Where transactions come to an end, start-up does**, whatever comes of its requests. -/
theorem start_returns {host : Host σ κ π δ} (hreturns : host.channel.link.AlwaysReturns) :
    Returns fun polls => host.start polls := by
  simp only [start_eq]
  apply (flush_returns hreturns).bind
  intro polls ready hflush
  have hready := hreturns.of_uses (flush_uses hflush)
  apply (hold_returns _ hready).bind
  intro polls talked hhold
  have htalked := (hready.of_uses (hold_uses hhold)).of_uses (dispatchPending_uses talked)
  exact (bringUps_return messageTypes htalked).map _

end Host

end EcLink
