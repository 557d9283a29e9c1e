import EcLink.Proofs.BringUpOrder
import Mathlib.Data.List.Flatten

/-!
# Events during start-up

Eight events can wait, and they are handed over when start-up comes to one of its rounds of
dispatching: after the flush, after **all** of the host's own requests, and after each bring-up.
What counts is therefore not how many events come in during a request, but how many come in between
two rounds. Of these the last eight reach their owners, once each and in the order of arrival, and
the others nobody, so **start-up loses an event exactly where a peripheral owns one of the others**.
-/

namespace EcLink

/-! ### Kept and lost -/

theorem flatMap_append_eq_iff {α β : Type} (lost kept : α → List β) (items : List α) :
    items.flatMap kept = items.flatMap (fun item => lost item ++ kept item) ↔
      ∀ item ∈ items, lost item = [] := by
  induction items with
  | nil => simp
  | cons item items ih =>
      rw [List.flatMap_cons, List.flatMap_cons, List.forall_mem_cons, ← ih]
      constructor
      · intro hsame
        -- What is kept is no longer than all there is, so nothing can be lost at the front.
        have hfew : (items.flatMap kept).length ≤
            (items.flatMap fun item => lost item ++ kept item).length := by
          apply List.Sublist.length_le
          apply List.Sublist.flatMap_right
          intro later _
          exact List.sublist_append_right _ _
        have hlength := congrArg List.length hsame
        simp only [List.length_append] at hlength
        have hnothing : lost item = [] := List.length_eq_zero_iff.mp (by omega)
        refine ⟨hnothing, ?_⟩
        rw [hnothing, List.nil_append] at hsame
        exact List.append_cancel_left hsame
      · rintro ⟨hnothing, hrest⟩
        rw [hnothing, hrest, List.nil_append]

namespace Stretch

variable {δ : Type}

/-- All the events that somebody owns. -/
def owned (directory : Directory δ) (stretch : Stretch) : List (δ × Event) :=
  stretch.events.filterMap directory.route

theorem owned_eq (directory : Directory δ) (stretch : Stretch) :
    stretch.owned directory =
      stretch.evicted.filterMap directory.route ++ stretch.delivered directory := by
  have hsplit : stretch.evicted ++ stretch.parked = stretch.events := List.take_append_drop _ _
  rw [owned, delivered, ← List.filterMap_append, hsplit]

theorem evicted_of_few {stretch : Stretch} (hfew : stretch.events.length ≤ pendingCapacity) :
    stretch.evicted = [] := by
  rw [evicted, List.rdrop, Nat.sub_eq_zero_of_le hfew, List.take_zero]

theorem delivered_eq_owned_iff (directory : Directory δ) (stretches : List Stretch) :
    stretches.flatMap (delivered directory) = stretches.flatMap (owned directory) ↔
      ∀ stretch ∈ stretches, ∀ frame ∈ stretch.evicted, directory.route frame = none := by
  have howned : owned directory = fun stretch =>
      stretch.evicted.filterMap directory.route ++ stretch.delivered directory := by
    funext stretch
    exact stretch.owned_eq directory
  rw [howned, flatMap_append_eq_iff]
  simp only [List.filterMap_eq_nil_iff]

end Stretch

/-! ### What is handed over during start-up -/

namespace Attention

variable {δ : Type}

def delivery? : Attention δ → Option (δ × Event)
  | .handed owner event => some (owner, event)
  | _ => none

theorem deliveries_handed (calls : List (δ × Event)) :
    (calls.map fun call => Attention.handed call.1 call.2).filterMap delivery? = calls := by
  rw [List.filterMap_map]
  exact List.filterMap_some

end Attention

/-- The events that were handed over so far. -/
def Attended.deliveries {π δ : Type} (attended : Attended π δ) : List (δ × Event) :=
  attended.history.filterMap Attention.delivery?

theorem deliveries_attention {δ : Type} (directory : Directory δ) (raised : List (Raised δ)) :
    (raised.flatMap (Raised.attention directory)).filterMap Attention.delivery? =
      (raised.map Raised.stretch).flatMap (Stretch.delivered directory) := by
  rw [List.flatMap_map, List.filterMap_flatMap]
  congr 1
  funext one
  rw [Raised.attention, List.filterMap_append, Stretch.handed, Attention.deliveries_handed]
  rfl

namespace Host

variable {σ κ π δ : Type} [Console κ] [Peripherals π δ] [Board σ]

theorem StartsUp.deliveries {polls : Nat} {flushed opened : Stretch} {raised : List (Raised δ)}
    {host after : Host σ κ (Attended π δ) δ}
    (hstarts : StartsUp polls flushed opened raised host after) :
    after.devices.deliveries = host.devices.deliveries ++
      (flushed :: opened :: raised.map Raised.stretch).flatMap
        (Stretch.delivered host.directory) := by
  rw [Attended.deliveries, hstarts.history, List.filterMap_append, List.filterMap_append,
    List.filterMap_append, deliveries_attention, Stretch.handed, Attention.deliveries_handed,
    Stretch.handed, Attention.deliveries_handed, List.flatMap_cons, List.flatMap_cons]
  simp only [List.append_assoc]
  rfl

/-- **Which events start-up delivers.** Of the flush, of all the host's own requests together, and
    of each bring-up, the last eight events go to those who own them, once each and in order. These
    are all the events that somebody owns just if nobody owns one that was pushed out, and so they
    are where no more than eight came in between two rounds of dispatching. -/
theorem start_delivers {polls : Nat} {host after : Host σ κ (Attended π δ) δ}
    (hdone : host.start polls = some after) :
    ∃ flushed opened raised, StartsUp polls flushed opened raised host after ∧
      after.devices.deliveries = host.devices.deliveries ++
        (flushed :: opened :: raised.map Raised.stretch).flatMap
          (Stretch.delivered host.directory) ∧
      (after.devices.deliveries = host.devices.deliveries ++
          (flushed :: opened :: raised.map Raised.stretch).flatMap
            (Stretch.owned host.directory) ↔
        ∀ stretch ∈ flushed :: opened :: raised.map Raised.stretch,
          ∀ frame ∈ stretch.evicted, host.directory.route frame = none) ∧
      ((∀ stretch ∈ flushed :: opened :: raised.map Raised.stretch,
          stretch.events.length ≤ pendingCapacity) →
        after.devices.deliveries = host.devices.deliveries ++
          (flushed :: opened :: raised.map Raised.stretch).flatMap
            (Stretch.owned host.directory)) := by
  obtain ⟨flushed, opened, raised, hstarts⟩ := start_startsUp hdone
  have hdeliveries := hstarts.deliveries
  have hall : after.devices.deliveries = host.devices.deliveries ++
        (flushed :: opened :: raised.map Raised.stretch).flatMap
          (Stretch.owned host.directory) ↔
      ∀ stretch ∈ flushed :: opened :: raised.map Raised.stretch,
        ∀ frame ∈ stretch.evicted, host.directory.route frame = none := by
    rw [hdeliveries, List.append_right_inj]
    exact Stretch.delivered_eq_owned_iff _ _
  refine ⟨flushed, opened, raised, hstarts, hdeliveries, hall, ?_⟩
  intro hfew
  apply hall.mpr
  intro stretch hstretch frame hframe
  rw [Stretch.evicted_of_few (hfew stretch hstretch)] at hframe
  cases hframe

end Host

/-- The controller is idle at first. It pushes so many events before it answers the first request of
    start-up, and as many before it answers the second. -/
def pushyScript (each : Nat) : List ScriptStep :=
  let answer := MasterScript.exchange MasterScript.usualAddress 2 noopResponse.bytes
  let push := fun number =>
    MasterScript.writes MasterScript.usualAddress [0x85, UInt8.ofNat number]
  MasterScript.idle :: ((List.range each).flatMap push ++ answer ++
    ((List.range each).map (each + ·)).flatMap push ++ answer)

def pushedHost (each : Nat) : Host ScriptedBoard Silent (Attended ProbeRow Nat) Nat :=
  let config : Config := { maxAttempts := 6, globalEvents := false, eventReporting := 0 }
  let host := ⟨.scripted config (pushyScript each), .empty, ⟨⟨[.fresh 0 none false], []⟩, []⟩⟩
  (Host.register 5 0 host).2

theorem start_delivers_all_pushed :
    ∃ after, (pushedHost 4).start 100 = some after ∧
      after.devices.deliveries.map (fun call => (call.1, call.2.payload)) =
        (List.range 8).map (fun number => (0, [UInt8.ofNat number])) ∧
      ∃ flushed opened raised,
        Host.StartsUp 100 flushed opened raised (pushedHost 4) after ∧
        after.devices.deliveries = (pushedHost 4).devices.deliveries ++
          (flushed :: opened :: raised.map Raised.stretch).flatMap
            (Stretch.delivered (pushedHost 4).directory) := by
  have hrun : ((pushedHost 4).start 100).map (fun after =>
      after.devices.deliveries.map fun call => (call.1, call.2.payload)) =
      some ((List.range 8).map fun number => (0, [UInt8.ofNat number])) := by decide +kernel
  obtain ⟨after, hdone, hdeliveries⟩ := Option.map_eq_some_iff.mp hrun
  obtain ⟨flushed, opened, raised, hstarts, hdelivered, -, -⟩ := Host.start_delivers hdone
  exact ⟨after, hdone, hdeliveries, flushed, opened, raised, hstarts, hdelivered⟩

/-- The frames that come in during each of the host's own requests. -/
def Host.openingFrames {σ κ π δ : Type} [Board σ] [Console κ] [Peripherals π δ] (polls : Nat)
    (host : Host σ κ π δ) : Option (List (List Frame)) :=
  (host.flush polls).map fun ready =>
    ready.channel.incoming polls (SystemRequest.opening host.config)

/-- Five events come in during each of two requests, but only eight are delivered: those of the
    second request push two of the first one out. -/
theorem events_lost_between_requests :
    ∃ incoming after, (pushedHost 5).openingFrames 100 = some incoming ∧
      (∀ frames ∈ incoming, (events frames).length ≤ pendingCapacity) ∧
      (pushedHost 5).start 100 = some after ∧
      ((events incoming.flatten).filterMap (pushedHost 5).directory.route).length = 10 ∧
      after.devices.deliveries.length = 8 := by
  have hframes : ((pushedHost 5).openingFrames 100).map (fun incoming =>
      (incoming.all fun frames => (events frames).length ≤ pendingCapacity,
        ((events incoming.flatten).filterMap (pushedHost 5).directory.route).length)) =
      some (true, 10) := by decide +kernel
  have hrun : ((pushedHost 5).start 100).map (fun after => after.devices.deliveries.length) =
      some 8 := by decide +kernel
  obtain ⟨incoming, hincoming, hcounts⟩ := Option.map_eq_some_iff.mp hframes
  obtain ⟨hfew, hten⟩ := Prod.mk.inj hcounts
  obtain ⟨after, hdone, height⟩ := Option.map_eq_some_iff.mp hrun
  refine ⟨incoming, after, hincoming, ?_, hdone, hten, height⟩
  intro frames hmem
  exact of_decide_eq_true (List.all_eq_true.mp hfew frames hmem)

end EcLink
