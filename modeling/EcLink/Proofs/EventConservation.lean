import EcLink.Operation
import EcLink.Proofs.Deliveries
import Mathlib.Data.List.DropRight

/-!
# No event is lost but by eviction

Every event that a transaction delivers is parked, and every parked event is handed out once, in
the order of arrival. The exception is the ninth: it pushes out the oldest of the eight events that
wait. `survivors` says which arrivals are left when one knows only how many events each newcomer
found waiting, and `Conserved` is the invariant that relates them to what was handed out and to
what waits.
-/

namespace EcLink

/-! ### Arrivals -/

/-- A frame that a transaction delivered, with the events that waited when it did. -/
structure Arrival where
  frame : Frame
  waiting : List Frame
  deriving DecidableEq, Repr

namespace Arrival

def isEvent (arrival : Arrival) : Bool := arrival.frame.header.isEvent

def evicts (arrival : Arrival) : Bool := arrival.waiting.length == pendingCapacity

end Arrival

def Try.arrival? (once : Try) : Option Arrival :=
  once.delivered?.map fun frame => ⟨frame, once.parked⟩

/-- The events among arrivals that are not pushed out. The oldest of eight events that wait is the
    eighth arrival before the newcomer, so an event goes if the eighth arrival after it finds no
    room. -/
def survivors : List Arrival → List Frame
  | [] => []
  | arrival :: later =>
      if later[pendingCapacity - 1]?.any Arrival.evicts then
        survivors later
      else
        arrival.frame :: survivors later

theorem survivors_of_short {arrivals : List Arrival} (hshort : arrivals.length ≤ pendingCapacity) :
    survivors arrivals = arrivals.map Arrival.frame := by
  induction arrivals with
  | nil => rfl
  | cons arrival later ih =>
      simp only [pendingCapacity, List.length_cons] at hshort
      have hnone : later[pendingCapacity - 1]? = none := by
        apply List.getElem?_eq_none
        simp only [pendingCapacity]
        omega
      rw [survivors, hnone, ih (by simp only [pendingCapacity]; omega)]
      rfl

theorem survivors_sublist (arrivals : List Arrival) :
    (survivors arrivals).Sublist (arrivals.map Arrival.frame) := by
  induction arrivals with
  | nil => exact List.Sublist.slnil
  | cons arrival later ih =>
      rw [survivors, List.map_cons]
      split
      · exact ih.cons _
      · exact ih.cons_cons _

theorem survivors_append_of_room {newcomer : Arrival} (hroom : newcomer.evicts = false)
    (arrivals : List Arrival) :
    survivors (arrivals ++ [newcomer]) = survivors arrivals ++ [newcomer.frame] := by
  induction arrivals with
  | nil => rfl
  | cons arrival later ih =>
      have hsame : (later ++ [newcomer])[pendingCapacity - 1]?.any Arrival.evicts =
          later[pendingCapacity - 1]?.any Arrival.evicts := by
        by_cases hlong : pendingCapacity - 1 < later.length
        · rw [List.getElem?_append_left hlong]
        · rw [List.getElem?_append_right (Nat.le_of_not_lt hlong),
            List.getElem?_eq_none (Nat.le_of_not_lt hlong), List.getElem?_singleton]
          split <;> simp [hroom]
      rw [List.cons_append, survivors, survivors, hsame, ih]
      split <;> rfl

/-- What becomes of early arrivals is settled by the eight that follow. -/
theorem survivors_append_of_long (earlier : List Arrival) {recent : List Arrival}
    (hlong : pendingCapacity ≤ recent.length) :
    ∃ front, ∀ later,
      survivors (earlier ++ (recent ++ later)) = front ++ survivors (recent ++ later) := by
  induction earlier with
  | nil => exact ⟨[], fun later => rfl⟩
  | cons arrival earlier ih =>
      obtain ⟨front, hfront⟩ := ih
      -- The eighth arrival after this one is among `earlier ++ recent` already.
      have hsettled : ∀ later, (earlier ++ (recent ++ later))[pendingCapacity - 1]? =
          (earlier ++ recent)[pendingCapacity - 1]? := by
        intro later
        rw [← List.append_assoc]
        apply List.getElem?_append_left
        simp only [pendingCapacity, List.length_append] at hlong ⊢
        omega
      by_cases hevicted : ((earlier ++ recent)[pendingCapacity - 1]?.any Arrival.evicts) = true
      · refine ⟨front, ?_⟩
        intro later
        rw [List.cons_append, survivors, hsettled, if_pos hevicted, hfront]
      · refine ⟨arrival.frame :: front, ?_⟩
        intro later
        rw [List.cons_append, survivors, hsettled, if_neg hevicted, hfront, List.cons_append]

/-- A newcomer that finds eight waiting pushes out exactly the eighth arrival before it. -/
theorem survivors_append_of_full {newcomer : Arrival} (hfull : newcomer.evicts = true)
    (earlier : List Arrival) (oldest : Arrival) {others : List Arrival}
    (hcount : others.length = pendingCapacity - 1) :
    ∃ front, survivors (earlier ++ oldest :: others) =
        front ++ (oldest :: others).map Arrival.frame ∧
      survivors (earlier ++ oldest :: others ++ [newcomer]) =
        front ++ (others.map Arrival.frame ++ [newcomer.frame]) := by
  have hlength : (oldest :: others).length = pendingCapacity := by
    rw [List.length_cons, hcount]
    rfl
  obtain ⟨front, hfront⟩ := survivors_append_of_long earlier (Nat.le_of_eq hlength.symm)
  refine ⟨front, ?_, ?_⟩
  · have hbefore := hfront []
    rw [List.append_nil] at hbefore
    rw [hbefore, survivors_of_short (Nat.le_of_eq hlength)]
  · have hgone : (others ++ [newcomer])[pendingCapacity - 1]?.any Arrival.evicts = true := by
      rw [← hcount, List.getElem?_concat_length]
      exact hfull
    have hshort : (others ++ [newcomer]).length ≤ pendingCapacity := by
      rw [List.length_append, hcount]
      exact Nat.le_of_eq rfl
    rw [List.append_assoc, hfront [newcomer], List.cons_append, survivors, if_pos hgone,
      survivors_of_short hshort, List.map_append, List.map_singleton]

/-! ### The invariant -/

/-- The events handed out, and then those that wait, are the arrivals that were not pushed out.
    Those that wait are the most recent arrivals, now and whenever one came in. -/
structure Conserved (arrivals : List Arrival) (handed waiting : List Frame) : Prop where
  kept : handed ++ waiting = survivors arrivals
  recent : waiting <:+ arrivals.map Arrival.frame
  found : ∀ earlier arrival later, arrivals = earlier ++ arrival :: later →
    arrival.waiting <:+ earlier.map Arrival.frame

namespace Conserved

variable {arrivals : List Arrival} {handed : List Frame} {pending : Pending}

theorem nothing : Conserved [] [] [] where
  kept := rfl
  recent := List.suffix_refl []
  found := by
    intro earlier arrival later hfalse
    simp at hfalse

theorem all_events {handed waiting : List Frame}
    (hconserved : Conserved (arrivals.filter Arrival.isEvent) handed waiting) :
    ∀ frame ∈ handed ++ waiting, frame.header.isEvent = true := by
  intro frame hframe
  rw [hconserved.kept] at hframe
  obtain ⟨arrival, harrival, rfl⟩ := List.mem_map.mp ((survivors_sublist _).subset hframe)
  exact (List.mem_filter.mp harrival).2

theorem found_append (hconserved : Conserved arrivals handed pending.frames) (frame : Frame) :
    ∀ earlier arrival later, arrivals ++ [⟨frame, pending.frames⟩] = earlier ++ arrival :: later →
      arrival.waiting <:+ earlier.map Arrival.frame := by
  intro earlier arrival later hsplit
  rcases List.eq_nil_or_concat later with rfl | ⟨before, last, rfl⟩
  · obtain ⟨rfl, hlast⟩ := List.append_inj' hsplit rfl
    cases hlast
    exact hconserved.recent
  · rw [List.concat_eq_append, ← List.cons_append, ← List.append_assoc] at hsplit
    obtain ⟨harrivals, -⟩ := List.append_inj' hsplit rfl
    exact hconserved.found earlier arrival before harrivals

theorem arrive (hconserved : Conserved arrivals handed pending.frames) (frame : Frame) :
    Conserved (arrivals ++ [⟨frame, pending.frames⟩]) handed (pending.park frame).frames := by
  have hfound := hconserved.found_append frame
  obtain ⟨hkept, hrecent, -⟩ := hconserved
  by_cases hfull : pending.isFull = true
  -- What waits are the last eight arrivals, so the first of them is the one that goes.
  · have hcount : pending.frames.length = pendingCapacity := by
      simpa [Pending.isFull] using hfull
    obtain ⟨front, hfront⟩ := hrecent
    obtain ⟨earlier, recent, rfl, -, hwaiting⟩ := List.map_eq_append_iff.mp hfront.symm
    cases recent with
    | nil =>
        rw [← hwaiting] at hcount
        cases hcount
    | cons oldest others =>
        have hothers : others.length = pendingCapacity - 1 := by
          rw [← hwaiting, List.length_map, List.length_cons] at hcount
          omega
        have hevicts : (Arrival.mk frame pending.frames).evicts = true := by
          simp [Arrival.evicts, hcount]
        obtain ⟨front', hbefore, hafter⟩ :=
          survivors_append_of_full hevicts earlier oldest hothers
        have hhanded : handed = front' := by
          rw [hbefore, hwaiting] at hkept
          exact List.append_cancel_right hkept
        have hparked : (pending.park frame).frames = others.map Arrival.frame ++ [frame] := by
          simp [Pending.park, hfull, ← hwaiting]
        refine ⟨by rw [hafter, hhanded, hparked], ?_, hfound⟩
        rw [hparked]
        exact ⟨earlier.map Arrival.frame ++ [oldest.frame], by simp⟩
  · have hroom : (Arrival.mk frame pending.frames).evicts = false := by
      simpa [Arrival.evicts, Pending.isFull] using hfull
    have hparked : (pending.park frame).frames = pending.frames ++ [frame] := by
      simp [Pending.park, hfull]
    refine ⟨?_, ?_, hfound⟩
    · rw [hparked, survivors_append_of_room hroom, ← hkept, List.append_assoc]
    · rw [hparked, List.map_append]
      exact (List.suffix_append_self_iff.mpr hrecent : _)

theorem collect (hconserved : Conserved arrivals handed pending.frames) :
    Conserved arrivals (handed ++ pending.pop.1.toList) pending.pop.2.frames := by
  obtain ⟨hkept, hrecent, hfound⟩ := hconserved
  have hsplit : pending.pop.1.toList ++ pending.pop.2.frames = pending.frames := by
    rcases pending with ⟨_ | ⟨oldest, others⟩, hbound⟩ <;> rfl
  refine ⟨?_, ?_, hfound⟩
  · rw [List.append_assoc, hsplit, hkept]
  · exact List.IsSuffix.trans ⟨_, hsplit⟩ hrecent

theorem deliver (hconserved : Conserved arrivals handed pending.frames)
    (delivered : Option Frame) :
    Conserved
      (arrivals ++ (delivered.map (Arrival.mk · pending.frames)).toList.filter Arrival.isEvent)
      handed (pending.parkAll (events delivered.toList)).frames := by
  cases delivered with
  | none => simpa [events, Pending.parkAll] using hconserved
  | some frame =>
      by_cases hevent : frame.header.isEvent = true
      · have harrive := hconserved.arrive frame
        simpa [Arrival.isEvent, events, Pending.parkAll, hevent] using harrive
      · simpa [Arrival.isEvent, events, Pending.parkAll, hevent] using hconserved

end Conserved

/-! ### Parking several events -/

theorem rtake_append_rtake {α : Type} (count : Nat) (earlier later : List α) :
    (earlier.rtake count ++ later).rtake count = (earlier ++ later).rtake count := by
  by_cases hlong : count ≤ earlier.length
  · simp only [List.rtake]
    rw [← List.drop_append_of_le_length (Nat.sub_le ..), List.drop_drop]
    congr 1
    simp only [List.length_drop, List.length_append]
    omega
  · have hall : earlier.rtake count = earlier := by
      rw [List.rtake, Nat.sub_eq_zero_of_le (Nat.le_of_not_le hlong), List.drop_zero]
    rw [hall]

theorem Pending.frames_park (frame : Frame) (pending : Pending) :
    (pending.park frame).frames = (pending.frames ++ [frame]).rtake pendingCapacity := by
  have hbound := pending.length_le
  by_cases hfull : pending.isFull = true
  · have hcount : pending.frames.length = pendingCapacity := by
      simpa [Pending.isFull] using hfull
    have hone : pending.frames.length + 1 - pendingCapacity = 1 := by omega
    have hpositive : 1 ≤ pending.frames.length := by
      rw [hcount]
      decide
    simp only [Pending.park, hfull, if_true, List.rtake, List.length_append, List.length_singleton,
      hone, List.drop_append_of_le_length hpositive, List.drop_one]
  · have hcount : pending.frames.length ≠ pendingCapacity := by
      simpa [Pending.isFull] using hfull
    have hnone : pending.frames.length + 1 - pendingCapacity = 0 := by omega
    simp [Pending.park, hfull, List.rtake, hnone]

theorem Pending.frames_parkAll (frames : List Frame) (pending : Pending) :
    (pending.parkAll frames).frames = (pending.frames ++ frames).rtake pendingCapacity := by
  induction frames generalizing pending with
  | nil =>
      rw [List.append_nil, List.rtake, Nat.sub_eq_zero_of_le pending.length_le, List.drop_zero]
      rfl
  | cons frame frames ih =>
      have hparked : pending.parkAll (frame :: frames) = (pending.park frame).parkAll frames := rfl
      rw [hparked, ih, Pending.frames_park, rtake_append_rtake, List.append_assoc,
        List.singleton_append]

/-! ### Histories -/

inductive ChannelCall
  | request (bytes : List UInt8)
  | receive (mode : Mode)
  | nextEvent
  deriving DecidableEq, Repr

def ChannelCall.operation : ChannelCall → ChannelOperation
  | .request bytes => .request bytes
  | .receive mode => .receive mode
  | .nextEvent => .nextEvent

def Reply.frame? : Reply → Option Frame
  | .frame event => event
  | _ => none

namespace Channel

variable {σ κ : Type} [Board σ] [Console κ]

/-- The frames that come in during one call. -/
def arrivals (polls : Nat) (channel : Channel σ κ) : ChannelCall → List Arrival
  | .request bytes =>
      match (Payload.ofBytes? bytes).bind (channel.attemptsMade polls ·) with
      | some (made, _) => made.filterMap Try.arrival?
      | none => []
  | .receive mode =>
      match channel.receive polls mode with
      | some (outcome, _) => (outcome.frame?.map (Arrival.mk · channel.pending.frames)).toList
      | none => []
  | .nextEvent => []

def allArrivals (polls : Nat) : List ChannelCall → Channel σ κ → List Arrival
  | [], _ => []
  | call :: later, channel =>
      channel.arrivals polls call ++
        match channel.perform polls call.operation with
        | some (_, next) => allArrivals polls later next
        | none => []

theorem tries_conserve {polls left number : Nat} {payload : Payload} {channel after : Channel σ κ}
    {made : List Try} {earlier : List Arrival} {handed : List Frame}
    (hmade : tries polls payload left number channel = some (made, after))
    (hconserved : Conserved earlier handed channel.pending.frames) :
    Conserved (earlier ++ (made.filterMap Try.arrival?).filter Arrival.isEvent) handed
      after.pending.frames := by
  induction left generalizing number channel made earlier with
  | zero =>
      cases hmade
      simpa using hconserved
  | succ left ih =>
      obtain ⟨once, middle, honce, hrest⟩ := tries_succ hmade
      obtain ⟨hparked, htook⟩ := tryOnce_took honce
      have hfirst : Conserved (earlier ++ once.arrival?.toList.filter Arrival.isEvent) handed
          middle.pending.frames := by
        rw [Try.arrival?, hparked, htook.pending]
        exact hconserved.deliver once.delivered?
      rcases hrest with ⟨frame, hframe, rfl, rfl⟩ | ⟨more, hnone, rfl, hmore⟩
      · rw [filterMap_cons_toList, List.filterMap_nil, List.append_nil]
        exact hfirst
      · have hsaid : Conserved (earlier ++ once.arrival?.toList.filter Arrival.isEvent) handed
            (sayResult number once middle).pending.frames := by
          rw [(sayResult_took number once middle).pending]
          exact hfirst
        rw [filterMap_cons_toList, List.filter_append, ← List.append_assoc]
        exact ih hmore hsaid

theorem perform_conserves {polls : Nat} {call : ChannelCall} {channel after : Channel σ κ}
    {reply : Reply} {earlier : List Arrival} {handed : List Frame}
    (hdone : channel.perform polls call.operation = some (reply, after))
    (hconserved : Conserved earlier handed channel.pending.frames) :
    Conserved (earlier ++ (channel.arrivals polls call).filter Arrival.isEvent)
      (handed ++ reply.frame?.toList) after.pending.frames := by
  cases call with
  | request bytes =>
      obtain ⟨⟨result, last⟩, hrequest, hend⟩ := Option.bind_eq_some_iff.mp hdone
      cases hend
      have hhanded : handed ++ (Reply.answered result).frame?.toList = handed :=
        List.append_nil handed
      rw [hhanded]
      cases hpayload : Payload.ofBytes? bytes with
      | none =>
          rw [request_of_invalid polls hpayload] at hrequest
          cases hrequest
          simpa [arrivals, hpayload] using hconserved
      | some payload =>
          obtain rfl := Payload.ofBytes?_eq_some_iff.mp hpayload
          rw [request_eq] at hrequest
          obtain ⟨⟨made, last⟩, hmade, hconclude⟩ := Option.map_eq_some_iff.mp hrequest
          have hpending := conclude_pending channel.link.diagnostics.signalFailures.count made last
          dsimp only at hconclude
          rw [hconclude] at hpending
          rw [hpending]
          simpa [arrivals, hpayload, hmade] using tries_conserve hmade hconserved
  | receive mode =>
      obtain ⟨⟨outcome, last⟩, hreceive, hend⟩ := Option.bind_eq_some_iff.mp hdone
      cases hend
      have hhanded : handed ++ (Reply.transacted outcome).frame?.toList = handed :=
        List.append_nil handed
      rw [hhanded, (receive_took hreceive).pending]
      simpa only [arrivals, hreceive] using hconserved.deliver outcome.frame?
  | nextEvent =>
      cases hdone
      have hnothing : channel.arrivals polls .nextEvent = [] := rfl
      rw [hnothing, List.filter_nil, List.append_nil]
      exact hconserved.collect

theorem performAll_conserves {polls : Nat} {calls : List ChannelCall} {channel after : Channel σ κ}
    {replies : List Reply} {earlier : List Arrival} {handed : List Frame}
    (hdone : performAll (perform polls) (calls.map ChannelCall.operation) channel =
      some (replies, after))
    (hconserved : Conserved earlier handed channel.pending.frames) :
    Conserved (earlier ++ (allArrivals polls calls channel).filter Arrival.isEvent)
      (handed ++ replies.filterMap Reply.frame?) after.pending.frames := by
  induction calls generalizing channel replies earlier handed with
  | nil =>
      cases hdone
      simpa [allArrivals] using hconserved
  | cons call later ih =>
      obtain ⟨⟨reply, next⟩, hfirst, hdone⟩ := Option.bind_eq_some_iff.mp hdone
      obtain ⟨⟨more, last⟩, hlater, hend⟩ := Option.bind_eq_some_iff.mp hdone
      cases hend
      have hstep := perform_conserves hfirst hconserved
      have hall := ih hlater hstep
      rw [filterMap_cons_toList, ← List.append_assoc]
      simpa only [allArrivals, hfirst, List.filter_append, List.append_assoc] using hall

/-- One request parks at most one event for each attempt; what waits then are the last eight. -/
theorem request_parks {polls : Nat} {payload : Payload} {channel after : Channel σ κ}
    {result : Except RequestError Unit}
    (hdone : channel.request polls payload.bytes = some (result, after)) :
    ∃ made last, channel.attemptsMade polls payload = some (made, last) ∧
      made.length ≤ channel.link.config.maxAttempts.toNat ∧
      after.pending.frames = (channel.pending.frames ++
        events (made.filterMap Try.delivered?)).rtake pendingCapacity := by
  obtain ⟨made, last, hmade, -, htook⟩ := request_took hdone
  refine ⟨made, last, hmade, tries_length hmade, ?_⟩
  rw [htook.pending, Pending.frames_parkAll]

theorem request_loses_nothing {polls : Nat} {payload : Payload} {channel after : Channel σ κ}
    {result : Except RequestError Unit}
    (hdone : channel.request polls payload.bytes = some (result, after))
    (hempty : channel.pending = .empty)
    (hfew : channel.link.config.maxAttempts.toNat ≤ pendingCapacity) :
    ∃ made last, channel.attemptsMade polls payload = some (made, last) ∧
      after.pending.frames = events (made.filterMap Try.delivered?) := by
  obtain ⟨made, last, hmade, hlength, hparked⟩ := request_parks hdone
  refine ⟨made, last, hmade, ?_⟩
  have hevents : (events (made.filterMap Try.delivered?)).length ≤ pendingCapacity :=
    calc (events (made.filterMap Try.delivered?)).length
        ≤ (made.filterMap Try.delivered?).length := List.length_filter_le ..
      _ ≤ made.length := List.length_filterMap_le ..
      _ ≤ pendingCapacity := Nat.le_trans hlength hfew
  rw [hparked, hempty, Pending.empty, List.nil_append, List.rtake, Nat.sub_eq_zero_of_le hevents,
    List.drop_zero]

end Channel

end EcLink
