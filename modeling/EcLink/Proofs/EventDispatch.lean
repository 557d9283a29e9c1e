import EcLink.Probe
import EcLink.Proofs.EventConservation

/-!
# Every surviving event reaches its owner

A host dispatches what is parked when a request is over, and after each transaction of a round of
event polling. If nothing waits when it starts, then the peripherals see the surviving events of
that request or transaction, each once and in the order of arrival, on a board that no longer
changes, and nothing waits afterwards.
-/

namespace EcLink

/-- Hand events to their owners one after the other, and collect what these have to say. -/
def handleAll {π δ : Type} [Peripherals π δ] : List (δ × Event) → π → π × List Notice
  | [], devices => (devices, [])
  | (owner, event) :: later, devices =>
      let (devices, notices) := Peripherals.handle owner event devices
      let (devices, more) := handleAll later devices
      (devices, notices ++ more)

theorem handleAll_append {π δ : Type} [Peripherals π δ] (earlier later : List (δ × Event))
    (devices : π) :
    handleAll (earlier ++ later) devices =
      ((handleAll later (handleAll earlier devices).1).1,
        (handleAll earlier devices).2 ++ (handleAll later (handleAll earlier devices).1).2) := by
  induction earlier generalizing devices with
  | nil => rfl
  | cons call earlier ih =>
      simp only [List.cons_append, handleAll, ih, List.append_assoc]

theorem Console.tellAll_append {κ : Type} [Console κ] (earlier later : List Notice) (console : κ) :
    tellAll (earlier ++ later) console = tellAll later (tellAll earlier console) :=
  List.foldl_append ..

def Outcome.goesOn : Outcome → Bool
  | .received _ => true
  | .cutShort => true
  | _ => false

namespace Host

variable {σ κ π δ : Type} [Console κ]

theorem foldl_tell (notices : List Notice) (host : Host σ κ π δ) :
    notices.foldl (fun host notice => host.tell notice) host =
      { host with channel := { host.channel with link := { host.channel.link with
        console := Console.tellAll notices host.channel.link.console } } } := by
  induction notices generalizing host with
  | nil => rfl
  | cons notice notices ih =>
      rw [List.foldl_cons, ih]
      rfl

def sayEnd (outcome : Outcome) (host : Host σ κ π δ) : Host σ κ π δ :=
  match outcome with
  | .sent => host.tell .unsolicitedRead
  | .failed fault => host.tell (.pollFailed fault)
  | _ => host

@[simp] theorem sayEnd_devices (outcome : Outcome) (host : Host σ κ π δ) :
    (host.sayEnd outcome).devices = host.devices := by
  unfold sayEnd
  split <;> rfl

@[simp] theorem sayEnd_pending (outcome : Outcome) (host : Host σ κ π δ) :
    (host.sayEnd outcome).channel.pending = host.channel.pending := by
  unfold sayEnd
  split <;> rfl

variable [Peripherals π δ]

/-- A host once its peripherals were handed these events. -/
def handled (calls : List (δ × Event)) (host : Host σ κ π δ) : Host σ κ π δ :=
  let (devices, notices) := handleAll calls host.devices
  let console := Console.tellAll notices host.channel.link.console
  { host with
    devices
    channel := { host.channel with link := { host.channel.link with console } } }

theorem handled_append (earlier later : List (δ × Event)) (host : Host σ κ π δ) :
    host.handled (earlier ++ later) = (host.handled earlier).handled later := by
  simp only [handled, handleAll_append, Console.tellAll_append]

theorem deliver_eq (host : Host σ κ π δ) (frame : Frame) :
    host.deliver frame = host.handled (host.directory.route frame).toList := by
  unfold deliver Directory.dispatch
  cases host.directory.route frame with
  | none => rfl
  | some call =>
      rcases call with ⟨owner, event⟩
      simp only [foldl_tell, handled, handleAll, Option.toList_some, List.append_nil]

theorem foldl_deliver (frames : List Frame) (host : Host σ κ π δ) :
    frames.foldl deliver host = host.handled (frames.filterMap host.directory.route) := by
  induction frames generalizing host with
  | nil => rfl
  | cons frame frames ih =>
      rw [List.foldl_cons, ih, deliver_eq, filterMap_cons_toList, handled_append]
      rfl

def withEmptied (channel : Channel σ κ) (host : Host σ κ π δ) : Host σ κ π δ :=
  { host with channel := { channel with pending := .empty } }

theorem dispatchPending_eq (host : Host σ κ π δ) :
    host.dispatchPending = (host.withEmptied host.channel).handled
      (host.channel.pending.frames.filterMap host.directory.route) :=
  foldl_deliver host.channel.pending.frames (host.withEmptied host.channel)

variable [Board σ]

theorem request_dispatches {polls : Nat} {bytes : List UInt8} {host after : Host σ κ π δ}
    {result : Except RequestError Unit}
    (hdone : host.request polls bytes = some (result, after))
    (hempty : host.channel.pending = .empty) :
    ∃ channel, host.channel.request polls bytes = some (result, channel) ∧
      after = (host.withEmptied channel).handled
        ((survivors ((host.channel.arrivals polls (.request bytes)).filter
          Arrival.isEvent)).filterMap host.directory.route) := by
  obtain ⟨⟨result', channel⟩, hrequest, hend⟩ := Option.bind_eq_some_iff.mp hdone
  cases hend
  have hconserved : Conserved [] [] host.channel.pending.frames := by
    rw [hempty]
    exact Conserved.nothing
  have hperformed : host.channel.perform polls (ChannelCall.request bytes).operation =
      some (.answered result, channel) :=
    Option.bind_eq_some_iff.mpr ⟨_, hrequest, rfl⟩
  have hkept := (Channel.perform_conserves hperformed hconserved).kept
  refine ⟨channel, hrequest, ?_⟩
  rw [dispatchPending_eq]
  simp only [List.nil_append] at hkept
  rw [← hkept]
  rfl

/-! ### Event polling -/

/-- A round of event polling with the outcomes of its transactions. After each of them its event,
    if it delivered one, is handed to its owner, and nothing waits for the next. -/
inductive Serviced (polls : Nat) :
    (reads : Nat) → List Outcome → Host σ κ π δ → Host σ κ π δ → Prop
  | done (host : Host σ κ π δ) : Serviced polls 0 [] host host
  | last {reads : Nat} {outcome : Outcome} {host : Host σ κ π δ} {channel : Channel σ κ}
      (hreceive : host.channel.receive polls .nonBlocking = some (outcome, channel))
      (hends : outcome.goesOn = false) :
      Serviced polls (reads + 1) [outcome] host
        (((host.withEmptied channel).handled
          (outcome.frame?.bind host.directory.route).toList).sayEnd outcome)
  | more {reads : Nat} {outcome : Outcome} {outcomes : List Outcome} {host after : Host σ κ π δ}
      {channel : Channel σ κ}
      (hreceive : host.channel.receive polls .nonBlocking = some (outcome, channel))
      (hgoesOn : outcome.goesOn = true)
      (hlater : Serviced polls reads outcomes ((host.withEmptied channel).handled
        (outcome.frame?.bind host.directory.route).toList) after) :
      Serviced polls (reads + 1) (outcome :: outcomes) host after

theorem receive_dispatches {polls : Nat} {mode : Mode} {host : Host σ κ π δ} {outcome : Outcome}
    {channel : Channel σ κ} (hreceive : host.channel.receive polls mode = some (outcome, channel))
    (hempty : host.channel.pending = .empty) :
    { host with channel }.dispatchPending = (host.withEmptied channel).handled
      (outcome.frame?.bind host.directory.route).toList := by
  have hpending := (Channel.receive_took hreceive).pending
  have hcalls : channel.pending.frames.filterMap host.directory.route =
      (outcome.frame?.bind host.directory.route).toList := by
    rw [hpending, hempty, Pending.frames_parkAll]
    cases outcome.frame? with
    | none => rfl
    | some frame =>
        by_cases hevent : frame.header.isEvent = true
        · simp only [Option.toList_some, events_singleton, if_pos hevent, Option.bind_some]
          cases hroute : host.directory.route frame <;>
            simp [Pending.empty, List.rtake, pendingCapacity, hroute]
        · have hnobody : host.directory.route frame = none := by
            unfold Directory.route
            rw [Frame.event?_of_response (by simpa using hevent)]
            rfl
          simp [events, hevent, Pending.empty, List.rtake, hnobody]
  rw [dispatchPending_eq]
  exact congrArg (fun calls => (host.withEmptied channel).handled calls) hcalls

theorem serviceEvents_succ (polls reads : Nat) (host : Host σ κ π δ) :
    host.serviceEvents polls (reads + 1) =
      (host.channel.receive polls .nonBlocking).bind fun (outcome, channel) =>
        if outcome.goesOn then { host with channel }.dispatchPending.serviceEvents polls reads
        else some ({ host with channel }.dispatchPending.sayEnd outcome) := by
  rw [serviceEvents, receiveQuietly]
  cases host.channel.receive polls .nonBlocking with
  | none => rfl
  | some done =>
      rcases done with ⟨outcome, channel⟩
      cases outcome <;> rfl

theorem serviceEvents_serviced {polls reads : Nat} {host after : Host σ κ π δ}
    (hdone : host.serviceEvents polls reads = some after)
    (hempty : host.channel.pending = .empty) :
    ∃ outcomes, Serviced polls reads outcomes host after := by
  induction reads generalizing host with
  | zero =>
      cases hdone
      exact ⟨[], .done _⟩
  | succ reads ih =>
      rw [serviceEvents_succ] at hdone
      obtain ⟨⟨outcome, channel⟩, hreceive, hdone⟩ := Option.bind_eq_some_iff.mp hdone
      dsimp only at hdone
      rw [receive_dispatches hreceive hempty] at hdone
      split at hdone
      case isTrue hgoesOn =>
        obtain ⟨outcomes, hlater⟩ := ih hdone rfl
        exact ⟨_, .more hreceive hgoesOn hlater⟩
      case isFalse hends =>
        cases hdone
        exact ⟨_, .last hreceive (Bool.eq_false_iff.mpr hends)⟩

theorem Serviced.devices_eq {polls reads : Nat} {outcomes : List Outcome}
    {host after : Host σ κ π δ} (hserviced : Serviced polls reads outcomes host after) :
    outcomes.length ≤ reads ∧
      after.devices = (handleAll ((outcomes.filterMap Outcome.frame?).filterMap
        host.directory.route) host.devices).1 ∧
      (host.channel.pending = .empty → after.channel.pending = .empty) := by
  have hsplit : ∀ (outcome : Outcome) (outcomes : List Outcome) (host : Host σ κ π δ),
      ((outcome :: outcomes).filterMap Outcome.frame?).filterMap host.directory.route =
        (outcome.frame?.bind host.directory.route).toList ++
          (outcomes.filterMap Outcome.frame?).filterMap host.directory.route := by
    intro outcome outcomes host
    rw [List.filterMap_filterMap, List.filterMap_filterMap, filterMap_cons_toList]
  induction hserviced with
  | done host => exact ⟨Nat.le_refl 0, rfl, id⟩
  | last hreceive hends =>
      refine ⟨by simp, ?_, fun _ => sayEnd_pending _ _⟩
      rw [sayEnd_devices, hsplit, List.filterMap_nil, List.filterMap_nil, List.append_nil]
      rfl
  | more hreceive hgoesOn hlater ih =>
      obtain ⟨hlength, hdevices, hpending⟩ := ih
      refine ⟨by simpa using hlength, ?_, fun _ => hpending rfl⟩
      rw [hdevices, hsplit, handleAll_append]
      rfl

/-- **Events are conserved.** In any history of a new channel, what was handed out and what waits
    are the events that came in, in order and once each, but for those that were the oldest of
    eight when another one came. A request parks at most one event for each attempt. A host that
    starts with nothing waiting hands every surviving event to its owner, after the request or the
    transaction that brought it, and leaves nothing waiting. -/
theorem events_conserved (polls : Nat) :
    (∀ (link : Link σ κ) (calls : List ChannelCall) (replies : List Reply) (after : Channel σ κ),
      performAll (Channel.perform polls) (calls.map ChannelCall.operation) (.ofLink link) =
          some (replies, after) →
        Conserved ((Channel.allArrivals polls calls (.ofLink link)).filter Arrival.isEvent)
            (replies.filterMap Reply.frame?) after.pending.frames ∧
          ∀ frame ∈ replies.filterMap Reply.frame? ++ after.pending.frames,
            frame.header.isEvent = true) ∧
    (∀ (channel after : Channel σ κ) (payload : Payload) (result : Except RequestError Unit),
      channel.request polls payload.bytes = some (result, after) →
        ∃ made last, channel.attemptsMade polls payload = some (made, last) ∧
          made.length ≤ channel.link.config.maxAttempts.toNat ∧
          after.pending.frames = (channel.pending.frames ++
            events (made.filterMap Try.delivered?)).rtake pendingCapacity ∧
          (channel.pending = .empty →
            channel.link.config.maxAttempts.toNat ≤ pendingCapacity →
            after.pending.frames = events (made.filterMap Try.delivered?))) ∧
    (∀ (host after : Host σ κ π δ) (bytes : List UInt8) (result : Except RequestError Unit),
      host.request polls bytes = some (result, after) → host.channel.pending = .empty →
        (∃ channel, host.channel.request polls bytes = some (result, channel) ∧
          after = (host.withEmptied channel).handled
            ((survivors ((host.channel.arrivals polls (.request bytes)).filter
              Arrival.isEvent)).filterMap host.directory.route)) ∧
        after.channel.pending = .empty) ∧
    (∀ host after : Host σ κ π δ,
      host.pollEvents polls = some after → host.channel.pending = .empty →
        (∃ outcomes, Serviced polls host.config.maxEventReads.toNat outcomes host after ∧
          after.devices = (handleAll ((outcomes.filterMap Outcome.frame?).filterMap
            host.directory.route) host.devices).1) ∧
        after.channel.pending = .empty) := by
  refine ⟨?_, ?_, ?_, ?_⟩
  · intro link calls replies after hdone
    have hconserved := Channel.performAll_conserves hdone Conserved.nothing
    exact ⟨hconserved, hconserved.all_events⟩
  · intro channel after payload result hdone
    obtain ⟨made, last, hmade, hlength, hparked⟩ := Channel.request_parks hdone
    refine ⟨made, last, hmade, hlength, hparked, ?_⟩
    intro hempty hfew
    obtain ⟨made', last', hmade', hall⟩ := Channel.request_loses_nothing hdone hempty hfew
    rw [hmade] at hmade'
    cases hmade'
    exact hall
  · intro host after bytes result hdone hempty
    obtain ⟨channel, hrequest, rfl⟩ := request_dispatches hdone hempty
    exact ⟨⟨channel, hrequest, rfl⟩, rfl⟩
  · intro host after hdone hempty
    obtain ⟨outcomes, hserviced⟩ := serviceEvents_serviced hdone hempty
    obtain ⟨-, hdevices, hpending⟩ := hserviced.devices_eq
    exact ⟨⟨outcomes, hserviced, hdevices⟩, hpending hempty⟩

end Host

def nineEvents : List ScriptStep :=
  (List.range 9).flatMap fun number =>
    MasterScript.writes MasterScript.usualAddress [0x85, UInt8.ofNat number]

def takeNine : List ChannelCall := List.replicate 9 (.receive .nonBlocking) ++ [.nextEvent]

def probedHost (steps : List ScriptStep) : Host ScriptedBoard Silent ProbeRow Nat :=
  let host := ⟨.scripted {} steps, .empty, ⟨[.fresh 0 none false], []⟩⟩
  (Host.register 5 0 host).2

-- The first of nine events is lost and the second handed out; the probe sees what a request and a
-- round of event polling bring.
theorem events_conserved_nine :
    (∃ replies after,
      performAll (Channel.perform 9) (takeNine.map ChannelCall.operation)
        (.scripted {} nineEvents : Channel ScriptedBoard Silent) = some (replies, after) ∧
      replies.filterMap Reply.frame? = [⟨[0x85, 1], by decide, by decide⟩] ∧
      Conserved ((Channel.allArrivals 9 takeNine (.scripted {} nineEvents)).filter Arrival.isEvent)
        (replies.filterMap Reply.frame?) after.pending.frames) ∧
    (∃ result after made last,
      (Channel.scripted {} strayEventFirst).request 9 Payload.noop.bytes = some (result, after) ∧
      (Channel.scripted {} strayEventFirst).attemptsMade 9 .noop = some (made, last) ∧
      after.pending.frames = ([] ++ events (made.filterMap Try.delivered?)).rtake
        pendingCapacity) ∧
    (∃ result after, (probedHost strayEventFirst).request 9 Payload.noop.bytes =
        some (result, after) ∧
      after.devices.probes.map Probe.events = [[lidEvent.bytes]] ∧
      after.channel.pending = .empty) ∧
    (∃ after, (probedHost nineEvents).pollEvents 9 = some after ∧
      after.channel.pending = .empty) := by
  obtain ⟨hhistory, hrequest, hhost, hpolling⟩ :=
    Host.events_conserved (σ := ScriptedBoard) (κ := Silent) (π := ProbeRow) (δ := Nat) 9
  refine ⟨?_, ?_, ?_, ?_⟩
  · have hrun : (performAll (Channel.perform 9) (takeNine.map ChannelCall.operation)
        (.scripted {} nineEvents : Channel ScriptedBoard Silent)).map
          (fun done => done.1.filterMap Reply.frame?) =
        some [⟨[0x85, 1], by decide, by decide⟩] := by decide
    obtain ⟨⟨replies, after⟩, hdone, hreplies⟩ := Option.map_eq_some_iff.mp hrun
    exact ⟨replies, after, hdone, hreplies, (hhistory _ _ _ _ hdone).1⟩
  · have hrun : ((Channel.scripted {} strayEventFirst).request 9 Payload.noop.bytes).isSome := by
      decide
    obtain ⟨⟨result, after⟩, hdone⟩ := Option.isSome_iff_exists.mp hrun
    obtain ⟨made, last, hmade, -, hparked, -⟩ := hrequest _ _ _ _ hdone
    exact ⟨result, after, made, last, hdone, hmade, hparked⟩
  · have hrun : ((probedHost strayEventFirst).request 9 Payload.noop.bytes).map
        (fun done => done.2.devices.probes.map Probe.events) = some [[lidEvent.bytes]] := by
      decide
    obtain ⟨⟨result, after⟩, hdone, hevents⟩ := Option.map_eq_some_iff.mp hrun
    exact ⟨result, after, hdone, hevents, (hhost _ _ _ _ hdone rfl).2⟩
  · have hrun : ((probedHost nineEvents).pollEvents 9).isSome := by decide
    obtain ⟨after, hdone⟩ := Option.isSome_iff_exists.mp hrun
    exact ⟨after, hdone, (hpolling _ _ hdone rfl).2⟩

end EcLink
