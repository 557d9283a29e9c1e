import EcLink.Proofs.BringUpOrder

/-!
# How far a round of event polling goes

A round carries out transactions until one of them neither delivers a frame nor is merely cut
short, or until there were as many as the configuration allows. `Host.Serves` is about transactions
that no such bound ends, with dispatching after each of them, and **a round of event polling is as
many of these as there are up to the first that ends it**, and a notice. What is known of every
number of transactions is then known of a round, at its end and between any two of its transactions,
and it does not matter how much waits when the round begins.
-/

namespace EcLink

theorem Channel.receive_eq_none_iff {σ κ : Type} [Board σ] [Console κ] {polls : Nat} {mode : Mode}
    {channel : Channel σ κ} :
    channel.receive polls mode = none ↔ channel.link.transact polls mode = none := by
  rw [receive_eq, Option.map_eq_none_iff]

namespace Host

variable {σ κ π δ : Type} [Console κ]

/-- What is said at the end of a round is about its last transaction. -/
def sayLast (outcomes : List Outcome) (host : Host σ κ π δ) : Host σ κ π δ :=
  match outcomes.getLast? with
  | some outcome => host.sayEnd outcome
  | none => host

theorem sayLast_cons {outcome : Outcome} (hgoesOn : outcome.goesOn = true)
    (later : List Outcome) (host : Host σ κ π δ) :
    host.sayLast (outcome :: later) = host.sayLast later := by
  cases later with
  | nil =>
      cases outcome with
      | received frame => rfl
      | cutShort => rfl
      | _ => cases hgoesOn
  | cons next later =>
      unfold sayLast
      rw [List.getLast?_cons_cons]

/-- A notice leaves the rest of the channel as it is. -/
theorem sayLast_keeps (outcomes : List Outcome) (host : Host σ κ π δ) :
    (host.sayLast outcomes).channel.pending = host.channel.pending ∧
      (host.sayLast outcomes).channel.response = host.channel.response ∧
      (host.sayLast outcomes).channel.link.board = host.channel.link.board ∧
      (host.sayLast outcomes).channel.link.diagnostics = host.channel.link.diagnostics := by
  unfold sayLast sayEnd
  split
  · split <;> exact ⟨rfl, rfl, rfl, rfl⟩
  · exact ⟨rfl, rfl, rfl, rfl⟩

/-- What owners are handed in the course of transactions with these outcomes, when there are frames
    that wait for the first one. -/
def handedOver (directory : Directory δ) : List Frame → List Outcome → List (δ × Event)
  | _, [] => []
  | waiting, outcome :: later =>
      (Stretch.mk waiting [outcome.frame?.toList]).delivered directory ++
        handedOver directory [] later

variable [Peripherals π δ]

theorem dispatchPending_pending (host : Host σ κ π δ) :
    host.dispatchPending.channel.pending = .empty := by
  rw [dispatchPending_eq]
  rfl

theorem dispatchPending_response (host : Host σ κ π δ) :
    host.dispatchPending.channel.response = host.channel.response := by
  rw [dispatchPending_eq]
  rfl

variable [Board σ]

/-- Transactions that do not wait, with these outcomes. **All that is parked goes to its owners
    before the next one begins.** -/
inductive Serves (polls : Nat) : List Outcome → Host σ κ π δ → Host σ κ π δ → Prop
  | nothing (host : Host σ κ π δ) : Serves polls [] host host
  | next {outcome : Outcome} {later : List Outcome} {host after : Host σ κ π δ}
      {channel : Channel σ κ}
      (hreceive : host.channel.receive polls .nonBlocking = some (outcome, channel))
      (hlater : Serves polls later { host with channel }.dispatchPending after) :
      Serves polls (outcome :: later) host after

/-! ### What some transactions leave behind -/

variable {polls : Nat} {outcomes : List Outcome} {host after : Host σ κ π δ}

theorem Serves.split {earlier later : List Outcome}
    (hserves : Serves polls (earlier ++ later) host after) :
    ∃ middle, Serves polls earlier host middle ∧ Serves polls later middle after := by
  induction earlier generalizing host with
  | nil => exact ⟨host, .nothing host, hserves⟩
  | cons outcome earlier ih =>
      cases hserves with
      | next hreceive hlater =>
          obtain ⟨middle, hearlier, hrest⟩ := ih hlater
          exact ⟨middle, .next hreceive hearlier, hrest⟩

/-- Whatever waited at first, after one transaction nothing does. -/
theorem Serves.pending (hserves : Serves polls outcomes host after) (hsome : outcomes ≠ []) :
    after.channel.pending = .empty := by
  induction hserves with
  | nothing => exact (hsome rfl).elim
  | next hreceive hlater ih =>
      cases hlater with
      | nothing => exact dispatchPending_pending _
      | next => exact ih (List.cons_ne_nil _ _)

/-- **Every event goes to its owner in the order of arrival**, those that waited first. -/
theorem Serves.devices_eq (hserves : Serves polls outcomes host after) :
    after.devices = (handleAll (handedOver host.directory host.channel.pending.frames outcomes)
      host.devices).1 := by
  induction hserves with
  | nothing => rfl
  | @next outcome later host after channel hreceive hlater ih =>
      -- Only the first transaction finds anything that waits.
      have hdispatched := dispatchPending_of_parked (Channel.receive_parks hreceive) host
      rw [ih, dispatchPending_pending, hdispatched, handedOver, handleAll_append]
      rfl

/-- **The last response is held**, and the one from before if there was none. -/
theorem Serves.response_eq (hserves : Serves polls outcomes host after) :
    after.channel.response =
      (responses (outcomes.filterMap Outcome.frame?)).getLast?.or host.channel.response := by
  induction hserves with
  | nothing => rfl
  | next hreceive hlater ih =>
      rw [ih, dispatchPending_response, (Channel.receive_took hreceive).response,
        filterMap_cons_toList, responses_append, List.getLast?_append, Option.or_assoc]

/-! ### A round of event polling -/

/-- **A round is the transactions up to the first that ends it**, if that comes early enough. -/
theorem serviceEvents_serves {reads : Nat} (hdone : host.serviceEvents polls reads = some after) :
    ∃ outcomes last, Serves polls outcomes host last ∧ after = last.sayLast outcomes ∧
      outcomes.length = min reads (outcomes.findIdx (fun outcome => !outcome.goesOn) + 1) := by
  induction reads generalizing host with
  | zero =>
      cases hdone
      exact ⟨[], _, .nothing _, rfl, rfl⟩
  | succ reads ih =>
      rw [serviceEvents_succ] at hdone
      obtain ⟨⟨outcome, channel⟩, hreceive, hdone⟩ := Option.bind_eq_some_iff.mp hdone
      dsimp only at hdone
      split at hdone
      case isTrue hgoesOn =>
        obtain ⟨outcomes, last, hserves, hend, hlength⟩ := ih hdone
        refine ⟨outcome :: outcomes, last, .next hreceive hserves, ?_, ?_⟩
        · rw [hend, sayLast_cons hgoesOn]
        · rw [List.length_cons, hlength, List.findIdx_cons, hgoesOn]
          exact (Nat.succ_min_succ _ _).symm
      case isFalse hends =>
        cases hdone
        refine ⟨[outcome], _, .next hreceive (.nothing _), rfl, ?_⟩
        have hfirst : [outcome].findIdx (fun outcome => !outcome.goesOn) = 0 := by
          rw [List.findIdx_cons, Bool.eq_false_iff.mpr hends]
          rfl
        rw [hfirst, List.length_singleton]
        omega

/-- **A round has an end unless one of its own transactions has none.** -/
theorem serviceEvents_eq_none_iff {reads : Nat} :
    host.serviceEvents polls reads = none ↔
      ∃ outcomes middle, Serves polls outcomes host middle ∧ outcomes.length < reads ∧
        (∀ outcome ∈ outcomes, outcome.goesOn = true) ∧
        middle.channel.link.transact polls .nonBlocking = none := by
  induction reads generalizing host with
  | zero =>
      constructor
      · exact nofun
      · rintro ⟨outcomes, middle, -, hfew, -⟩
        exact (Nat.not_lt_zero _ hfew).elim
  | succ reads ih =>
      rw [serviceEvents_succ]
      cases hreceive : host.channel.receive polls .nonBlocking with
      | none =>
          rw [Option.bind_none]
          have hstuck := Channel.receive_eq_none_iff.mp hreceive
          exact iff_of_true rfl ⟨[], host, .nothing host, Nat.succ_pos reads, nofun, hstuck⟩
      | some done =>
          rcases done with ⟨outcome, channel⟩
          rw [Option.bind_some]
          dsimp only
          constructor
          · intro hstuck
            split at hstuck
            case isTrue hgoesOn =>
              obtain ⟨outcomes, middle, hserves, hfew, hgoOn, hnone⟩ := ih.mp hstuck
              exact ⟨outcome :: outcomes, middle, .next hreceive hserves,
                Nat.succ_lt_succ hfew, List.forall_mem_cons.mpr ⟨hgoesOn, hgoOn⟩, hnone⟩
            case isFalse => cases hstuck
          · rintro ⟨outcomes, middle, hserves, hfew, hgoOn, hnone⟩
            cases hserves with
            | nothing =>
                rw [Channel.receive_eq_none_iff.mpr hnone] at hreceive
                cases hreceive
            | next hfirst hlater =>
                rw [hreceive] at hfirst
                cases hfirst
                obtain ⟨hgoesOn, hgoOn⟩ := List.forall_mem_cons.mp hgoOn
                rw [if_pos hgoesOn]
                exact ih.mpr ⟨_, middle, hlater, Nat.lt_of_succ_lt_succ hfew, hgoOn, hnone⟩

/-- **Where transactions come to an end, so does a round.** -/
theorem serviceEvents_returns (reads : Nat) (hreturns : host.channel.link.AlwaysReturns) :
    Returns fun polls => host.serviceEvents polls reads := by
  induction reads generalizing host with
  | zero => exact .pure host
  | succ reads ih =>
      simp only [serviceEvents_succ]
      apply (Channel.receive_returns hreturns .nonBlocking).bind
      rintro polls ⟨outcome, channel⟩ hreceive
      dsimp only
      split
      · apply ih
        have hreceived := hreturns.of_uses (Channel.receive_uses hreceive)
        exact hreceived.of_uses (dispatchPending_uses { host with channel })
      · exact .pure _

end Host

namespace Host

variable {σ κ π δ : Type} [Board σ] [Console κ] [Peripherals π δ]

theorem Serves.quietly {polls : Nat} {outcomes : List Outcome} {host after : Host (Traced σ) κ π δ}
    (hserves : Serves polls outcomes host after) :
    Link.Quietly host.channel.link after.channel.link := by
  induction hserves with
  | nothing => exact .of_nothing rfl rfl
  | @next outcome later host after channel hreceive hlater ih =>
      have hdispatched : Link.Quietly channel.link
          { host with channel }.dispatchPending.channel.link := by
        rw [dispatchPending_eq]
        exact .of_nothing rfl rfl
      exact ((Channel.receive_quietly hreceive).trans hdispatched).trans ih

/-- **A round of event polling is bounded.** It has an end unless one of its own transactions has
    none, and always has one where all transactions do. From any host, with whatever waits there, it
    is as many transactions as the configuration allows, or as there are up to the first that
    neither delivers a frame nor is merely cut short. Between any two of them nothing waits, and
    every event that did was handed to its owner. The request line is not pulled. A round that is
    allowed one transaction leaves nothing waiting, and of the responses that came in the last one
    is held; if none came in, what was held before still is. -/
theorem polling_is_bounded (host : Host (Traced σ) κ π δ) :
    (host.channel.link.AlwaysReturns → Returns fun polls => host.pollEvents polls) ∧
    (∀ polls, host.pollEvents polls = none ↔
      ∃ outcomes middle, Serves polls outcomes host middle ∧
        outcomes.length < host.config.maxEventReads.toNat ∧
        (∀ outcome ∈ outcomes, outcome.goesOn = true) ∧
        middle.channel.link.transact polls .nonBlocking = none) ∧
    (∀ polls after, host.pollEvents polls = some after →
      ∃ outcomes last, Serves polls outcomes host last ∧ after = last.sayLast outcomes ∧
        outcomes.length = min host.config.maxEventReads.toNat
          (outcomes.findIdx (fun outcome => !outcome.goesOn) + 1) ∧
        (∀ earlier later, outcomes = earlier ++ later →
          ∃ middle, Serves polls earlier host middle ∧ Serves polls later middle last ∧
            (earlier ≠ [] → middle.channel.pending = .empty) ∧
            middle.devices = (handleAll (handedOver host.directory host.channel.pending.frames
              earlier) host.devices).1) ∧
        Link.Quietly host.channel.link after.channel.link ∧
        (0 < host.config.maxEventReads.toNat → after.channel.pending = .empty) ∧
        after.channel.response =
          (responses (outcomes.filterMap Outcome.frame?)).getLast?.or host.channel.response) := by
  refine ⟨serviceEvents_returns _, fun polls => serviceEvents_eq_none_iff, ?_⟩
  intro polls after hdone
  obtain ⟨outcomes, last, hserves, rfl, hlength⟩ := serviceEvents_serves hdone
  obtain ⟨hpending, hresponse, hboard, hdiagnostics⟩ := last.sayLast_keeps outcomes
  refine ⟨outcomes, last, hserves, rfl, hlength, ?_, ?_, ?_, ?_⟩
  · rintro earlier later rfl
    obtain ⟨middle, hearlier, hlater⟩ := hserves.split
    exact ⟨middle, hearlier, hlater, hearlier.pending, hearlier.devices_eq⟩
  · have hsaid : Link.Quietly last.channel.link (last.sayLast outcomes).channel.link :=
      .of_nothing (by rw [hboard]) (by rw [hdiagnostics])
    exact hserves.quietly.trans hsaid
  · intro hallowed
    rw [hpending]
    apply hserves.pending
    rintro rfl
    rw [List.length_nil] at hlength
    omega
  · rw [hresponse, hserves.response_eq]

end Host

/-- An event waits, and the controller is about to write two more. -/
def crowdedHost : Host ScriptedBoard Silent ProbeRow Nat :=
  let host := probedHost ([[0x85, 1], [0x85, 2]].flatMap
    (MasterScript.writes MasterScript.usualAddress))
  { host with channel := { host.channel with pending := ⟨[lidEvent], by decide⟩ } }

theorem polling_is_bounded_crowded :
    stoppedHost.channel.link.AlwaysReturns ∧
    (Returns fun polls => stoppedHost.pollEvents polls) ∧
    ∃ after outcomes last, crowdedHost.pollEvents 9 = some after ∧
      Host.Serves 9 outcomes crowdedHost last ∧ after = last.sayLast outcomes ∧
      after.devices.probes.map Probe.events = [[lidEvent.bytes, [0x85, 1], [0x85, 2]]] ∧
      last.devices = (handleAll (Host.handedOver crowdedHost.directory [lidEvent] outcomes)
        crowdedHost.devices).1 ∧
      after.channel.pending = .empty := by
  have hreturns : stoppedHost.channel.link.AlwaysReturns :=
    Link.alwaysReturns_of_stopped rfl rfl
  obtain ⟨hends, -⟩ := Host.polling_is_bounded stoppedHost
  obtain ⟨-, -, hround⟩ := Host.polling_is_bounded crowdedHost
  have hrun : (crowdedHost.pollEvents 9).map (fun after => after.devices.probes.map Probe.events) =
      some [[lidEvent.bytes, [0x85, 1], [0x85, 2]]] := by decide
  obtain ⟨after, hdone, hevents⟩ := Option.map_eq_some_iff.mp hrun
  obtain ⟨outcomes, last, hserves, hend, -, hbetween, -, hpending, -⟩ := hround 9 after hdone
  obtain ⟨middle, -, hnone, -, hdevices⟩ := hbetween outcomes [] (List.append_nil outcomes).symm
  cases hnone
  exact ⟨hreturns, hends hreturns, after, outcomes, _, hdone, hserves, hend, hevents, hdevices,
    hpending (by decide)⟩

end EcLink
