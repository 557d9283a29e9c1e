import EcLink.Operation
import EcLink.StandIn
import EcLink.Proofs.BringUpOrder

/-!
# The first registration stays

Peripherals are registered, looked up, brought up and handed their events in any order. Nothing but
the operations so far decides what the next one comes to: **a message type belongs to whoever was
the first to be registered for it**, and an event goes to the owner of its type at that moment, and
to nobody else. So a peripheral is handed just the events of its type that are dispatched once it is
registered, and one whose registration was refused is handed nothing.
-/

namespace EcLink

/-! ### Operations on a registry -/

inductive RegistryOperation (δ : Type)
  | register (messageType : UInt8) (owner : δ)
  | isRegistered (messageType : UInt8)
  | bringUp (messageType : UInt8)
  | dispatch (frame : Frame)

/-- A directory with the peripherals that it names, and whoever takes their requests. -/
structure Registry (ρ π δ : Type) where
  directory : Directory δ
  devices : π
  line : ρ

namespace Registry

variable {ρ π δ : Type}

def fresh (devices : π) (line : ρ) : Registry ρ π δ := ⟨.empty, devices, line⟩

/-- The same registry without the record. -/
def unattended (registry : Registry ρ (Attended π δ) δ) : Registry ρ π δ :=
  { registry with devices := registry.devices.devices }

variable [Peripherals π δ]

/-- Carry out one operation; nothing if a bring-up does not come to its end. It is told whether
    there was an owner to bring up, and whether there was one to hand an event to. -/
def perform (requester : Requester ρ) (registry : Registry ρ π δ) :
    RegistryOperation δ → Option (Reply × Registry ρ π δ)
  | .register messageType owner =>
      match registry.directory.register messageType owner with
      | .ok directory => some (.registered (.ok ()), { registry with directory })
      | .error refusal => some (.registered (.error refusal), registry)
  | .isRegistered messageType =>
      some (.flag (registry.directory.isRegistered messageType), registry)
  | .bringUp messageType =>
      match registry.directory.owner? messageType with
      | none => some (.flag false, registry)
      | some owner => do
          let (devices, line) ←
            (Peripherals.bringUp owner registry.devices).run requester registry.line
          some (.flag true, { registry with devices, line })
  | .dispatch frame =>
      let (found, devices, _) := registry.directory.dispatch frame registry.devices
      some (.flag found, { registry with devices })

end Registry

/-! ### What the operations so far come to -/

/-- The event that a frame carries, with its message type: by the bytes alone, of which the first
    one tells both. -/
def Frame.posted? (frame : Frame) : Option (UInt8 × Event) :=
  match frame.bytes with
  | [] => none
  | header :: payload =>
      if 0x80 ≤ header then some (header &&& 0x0f, ⟨⟨header⟩, payload⟩) else none

namespace RegistryOperation

variable {δ : Type}

/-- Whom an operation registers for this message type. -/
def registers? (asked : UInt8) : RegistryOperation δ → Option δ
  | .register messageType owner =>
      if messageType = asked ∧ messageType.toNat < 16 then some owner else none
  | _ => none

/-- Who was the first to be registered for a message type; nobody for a number that is none. -/
def firstOwner? (earlier : List (RegistryOperation δ)) (asked : UInt8) : Option δ :=
  earlier.findSome? (registers? asked)

/-- Whom a frame is for, with what it gets to see. -/
def receiver? (earlier : List (RegistryOperation δ)) (frame : Frame) : Option (δ × Event) :=
  frame.posted?.bind fun (messageType, event) =>
    (firstOwner? earlier messageType).map fun owner => (owner, event)

/-- What an operation is told. -/
def reply (earlier : List (RegistryOperation δ)) : RegistryOperation δ → Reply
  | .register messageType _ =>
      .registered (
        if 16 ≤ messageType.toNat then .error (.outOfRange messageType)
        else if (firstOwner? earlier messageType).isSome then .error (.taken messageType)
        else .ok ())
  | .isRegistered messageType => .flag (firstOwner? earlier messageType).isSome
  | .bringUp messageType => .flag (firstOwner? earlier messageType).isSome
  | .dispatch frame => .flag (receiver? earlier frame).isSome

/-- What happens to the peripherals. -/
def attention (earlier : List (RegistryOperation δ)) : RegistryOperation δ → List (Attention δ)
  | .bringUp messageType =>
      match firstOwner? earlier messageType with
      | none => []
      | some owner => [.began owner, .ended owner]
  | .dispatch frame =>
      match receiver? earlier frame with
      | none => []
      | some (owner, event) => [.handed owner event]
  | _ => []

/-- What is said of each operation, given those before it. -/
def eachAfter {α : Type} (say : List (RegistryOperation δ) → RegistryOperation δ → α) :
    (earlier : List (RegistryOperation δ)) → List (RegistryOperation δ) → List α
  | _, [] => []
  | earlier, operation :: later =>
      say earlier operation :: eachAfter say (earlier ++ [operation]) later

theorem firstOwner?_concat (earlier : List (RegistryOperation δ)) (operation : RegistryOperation δ)
    (asked : UInt8) :
    firstOwner? (earlier ++ [operation]) asked =
      (firstOwner? earlier asked).or (operation.registers? asked) := by
  unfold firstOwner?
  rw [List.findSome?_append, List.findSome?_singleton]

end RegistryOperation

/-! ### The directory keeps to it -/

namespace Directory

variable {δ : Type}

open RegistryOperation

/-- The owners are those that these operations made. -/
def OwnedBy (earlier : List (RegistryOperation δ)) (directory : Directory δ) : Prop :=
  ∀ asked, directory.owner? asked = firstOwner? earlier asked

theorem register_replies (directory : Directory δ) (messageType : UInt8) (owner : δ) :
    (directory.register messageType owner).map (fun _ => ()) =
      if 16 ≤ messageType.toNat then .error (.outOfRange messageType)
      else if (directory.owner? messageType).isSome then .error (.taken messageType)
      else .ok () := by
  by_cases hrange : 16 ≤ messageType.toNat
  · have hnowhere : ¬ messageType.toNat < messageTypeCount := Nat.not_lt.mpr hrange
    rw [if_pos hrange, register, dif_neg hnowhere]
    rfl
  · have hplace : messageType.toNat < messageTypeCount := Nat.lt_of_not_le hrange
    rw [if_neg hrange, register, dif_pos hplace, owner?, Vector.getElem?_eq_getElem hplace]
    cases directory.slots[messageType.toNat] <;> rfl

theorem OwnedBy.concat {earlier : List (RegistryOperation δ)} {operation : RegistryOperation δ}
    {directory : Directory δ} (howned : directory.OwnedBy earlier)
    (hnobody : ∀ asked, operation.registers? asked = none) :
    directory.OwnedBy (earlier ++ [operation]) := by
  intro asked
  rw [firstOwner?_concat, hnobody, Option.or_none]
  exact howned asked

theorem OwnedBy.registered {earlier : List (RegistryOperation δ)} {messageType : UInt8} {owner : δ}
    {directory updated : Directory δ} (howned : directory.OwnedBy earlier)
    (hdone : directory.register messageType owner = .ok updated) :
    updated.OwnedBy (earlier ++ [.register messageType owner]) := by
  obtain ⟨hplace, hfree⟩ := (register_isOk_iff directory messageType owner).mp ⟨updated, hdone⟩
  intro asked
  rw [owner?_register hdone, firstOwner?_concat, ← howned, registers?]
  by_cases hsame : asked = messageType
  · subst hsame
    rw [if_pos rfl, if_pos ⟨rfl, hplace⟩, hfree]
    rfl
  · rw [if_neg hsame, if_neg fun hboth => hsame hboth.1.symm, Option.or_none]

theorem OwnedBy.refused {earlier : List (RegistryOperation δ)} {messageType : UInt8} {owner : δ}
    {directory : Directory δ} {refusal : Refusal} (howned : directory.OwnedBy earlier)
    (hdone : directory.register messageType owner = .error refusal) :
    directory.OwnedBy (earlier ++ [.register messageType owner]) := by
  intro asked
  rw [firstOwner?_concat, ← howned, registers?]
  by_cases hplace : messageType = asked ∧ messageType.toNat < 16
  · obtain ⟨rfl, hrange⟩ := hplace
    cases howner : directory.owner? messageType with
    | none =>
        obtain ⟨updated, hupdated⟩ :=
          (register_isOk_iff directory messageType owner).mpr ⟨hrange, howner⟩
        rw [hdone] at hupdated
        cases hupdated
    | some first => rfl
  · rw [if_neg hplace, Option.or_none]

theorem OwnedBy.route {earlier : List (RegistryOperation δ)} {directory : Directory δ}
    (howned : directory.OwnedBy earlier) (frame : Frame) :
    directory.route frame = receiver? earlier frame := by
  unfold receiver? Frame.posted?
  rw [frame.bytes_eq]
  dsimp only
  by_cases hevent : 0x80 ≤ frame.header.raw
  · rw [if_pos hevent, Directory.route, Frame.event?_of_event (frame.header.isEvent_iff.mpr hevent)]
    change Option.bind (directory.owner? (frame.header.raw &&& 0x0f)) _ = _
    rw [howned, Option.bind_some]
    cases firstOwner? earlier (frame.header.raw &&& 0x0f) <;> rfl
  · have hresponse : frame.header.isEvent = false := by
      rw [← Bool.not_eq_true, Header.isEvent_iff]
      exact hevent
    rw [if_neg hevent, Directory.route, Frame.event?_of_response hresponse]
    rfl

end Directory

namespace Registry

variable {ρ π δ : Type} [Peripherals π δ]

open RegistryOperation

/-- A registry after these operations, with what they did to its peripherals. -/
structure Follows (earlier : List (RegistryOperation δ)) (history : List (Attention δ))
    (registry : Registry ρ (Attended π δ) δ) : Prop where
  owned : registry.directory.OwnedBy earlier
  history : registry.devices.history = history

/-- **One operation comes to what those before it make of it.** -/
theorem Follows.perform {requester : Requester ρ} {operation : RegistryOperation δ}
    {earlier : List (RegistryOperation δ)} {history : List (Attention δ)} {reply : Reply}
    {registry after : Registry ρ (Attended π δ) δ} (hfollows : Follows earlier history registry)
    (hdone : registry.perform requester operation = some (reply, after)) :
    reply = operation.reply earlier ∧
      Follows (earlier ++ [operation]) (history ++ operation.attention earlier) after := by
  obtain ⟨howned, rfl⟩ := hfollows
  cases operation with
  | register messageType owner =>
      have hreplies := registry.directory.register_replies messageType owner
      rw [howned] at hreplies
      dsimp only [Registry.perform] at hdone
      cases hregister : registry.directory.register messageType owner with
      | error refusal =>
          rw [hregister] at hdone hreplies
          cases hdone
          exact ⟨congrArg Reply.registered hreplies, howned.refused hregister,
            (List.append_nil _).symm⟩
      | ok directory =>
          rw [hregister] at hdone hreplies
          cases hdone
          exact ⟨congrArg Reply.registered hreplies, howned.registered hregister,
            (List.append_nil _).symm⟩
  | isRegistered messageType =>
      cases hdone
      refine ⟨?_, howned.concat fun asked => rfl, (List.append_nil _).symm⟩
      rw [Directory.isRegistered, howned]
      rfl
  | bringUp messageType =>
      dsimp only [Registry.perform] at hdone
      rw [howned] at hdone
      rw [RegistryOperation.reply, RegistryOperation.attention]
      cases howner : firstOwner? earlier messageType with
      | none =>
          rw [howner] at hdone
          cases hdone
          exact ⟨rfl, howned.concat fun asked => rfl, (List.append_nil _).symm⟩
      | some owner =>
          rw [howner] at hdone
          dsimp only at hdone
          rw [registry.devices.run_bringUp] at hdone
          obtain ⟨⟨devices, line⟩, hrun, hend⟩ := Option.bind_eq_some_iff.mp hdone
          obtain ⟨⟨inner, last⟩, -, hinner⟩ := Option.map_eq_some_iff.mp hrun
          cases hinner
          cases hend
          exact ⟨rfl, howned.concat fun asked => rfl, rfl⟩
  | dispatch frame =>
      dsimp only [Registry.perform, Directory.dispatch] at hdone
      rw [howned.route] at hdone
      rw [RegistryOperation.reply, RegistryOperation.attention]
      cases hreceiver : receiver? earlier frame with
      | none =>
          rw [hreceiver] at hdone
          cases hdone
          exact ⟨rfl, howned.concat fun asked => rfl, (List.append_nil _).symm⟩
      | some call =>
          rw [hreceiver] at hdone
          cases hdone
          exact ⟨rfl, howned.concat fun asked => rfl, rfl⟩

theorem Follows.through {requester : Requester ρ} {operations earlier : List (RegistryOperation δ)}
    {history : List (Attention δ)} {replies : List Reply}
    {registry after : Registry ρ (Attended π δ) δ} (hfollows : Follows earlier history registry)
    (hdone : performAll (Registry.perform requester) operations registry = some (replies, after)) :
    replies = eachAfter reply earlier operations ∧
      Follows (earlier ++ operations)
        (history ++ (eachAfter attention earlier operations).flatten) after := by
  induction operations generalizing earlier history replies registry with
  | nil =>
      cases hdone
      rw [List.append_nil]
      exact ⟨rfl, hfollows.owned, hfollows.history.trans (List.append_nil _).symm⟩
  | cons operation later ih =>
      obtain ⟨⟨first, middle⟩, hfirst, hdone⟩ := Option.bind_eq_some_iff.mp hdone
      obtain ⟨⟨others, last⟩, hothers, hend⟩ := Option.bind_eq_some_iff.mp hdone
      cases hend
      obtain ⟨rfl, hmiddle⟩ := hfollows.perform hfirst
      obtain ⟨rfl, hafter⟩ := ih hmiddle hothers
      rw [List.append_assoc, List.append_assoc] at hafter
      exact ⟨rfl, hafter⟩

/-! ### Operations come to their end, with the record or without -/

theorem perform_isSome {requester : Requester ρ}
    (hanswered : ∀ bytes line, (requester.request bytes line).isSome)
    (operation : RegistryOperation δ) (registry : Registry ρ π δ) :
    (registry.perform requester operation).isSome := by
  cases operation with
  | register messageType owner =>
      dsimp only [perform]
      split
      · rfl
      · rfl
  | isRegistered messageType => rfl
  | bringUp messageType =>
      dsimp only [perform]
      split
      · rfl
      · rename_i owner _
        have hruns := Dialogue.run_isSome hanswered (Peripherals.bringUp owner registry.devices)
          registry.line
        obtain ⟨done, hdone⟩ := Option.isSome_iff_exists.mp hruns
        rw [hdone]
        rfl
  | dispatch frame => rfl

theorem performAll_isSome {requester : Requester ρ}
    (hanswered : ∀ bytes line, (requester.request bytes line).isSome)
    (operations : List (RegistryOperation δ)) (registry : Registry ρ π δ) :
    (performAll (perform requester) operations registry).isSome := by
  induction operations generalizing registry with
  | nil => rfl
  | cons operation later ih =>
      obtain ⟨⟨reply, middle⟩, hfirst⟩ :=
        Option.isSome_iff_exists.mp (perform_isSome hanswered operation registry)
      obtain ⟨⟨replies, after⟩, hlater⟩ := Option.isSome_iff_exists.mp (ih middle)
      rw [performAll, hfirst]
      change Option.isSome (Option.bind (performAll (perform requester) later middle) _) = true
      rw [hlater]
      rfl

theorem perform_unattended (requester : Requester ρ) (registry : Registry ρ (Attended π δ) δ)
    (operation : RegistryOperation δ) :
    registry.unattended.perform requester operation =
      (registry.perform requester operation).map (Prod.map id unattended) := by
  cases operation with
  | register messageType owner =>
      dsimp only [perform, unattended]
      cases registry.directory.register messageType owner with
      | ok directory => rfl
      | error refusal => rfl
  | isRegistered messageType => rfl
  | bringUp messageType =>
      dsimp only [perform, unattended]
      cases registry.directory.owner? messageType with
      | none => rfl
      | some owner =>
          dsimp only
          rw [registry.devices.run_bringUp]
          cases (Peripherals.bringUp owner registry.devices.devices).run requester
            registry.line with
          | none => rfl
          | some done => rfl
  | dispatch frame =>
      dsimp only [perform, unattended, Directory.dispatch]
      cases registry.directory.route frame with
      | none => rfl
      | some call => rfl

end Registry

/-! ### What one peripheral is handed -/

/-- The event, if it is this owner that is handed one. -/
def Attention.eventFor? {δ : Type} [DecidableEq δ] (owner : δ) : Attention δ → Option Event
  | .handed whom event => if whom = owner then some event else none
  | _ => none

namespace RegistryOperation

variable {δ : Type}

/-- The event that an operation dispatches, if it is one of this message type. -/
def dispatches? (messageType : UInt8) : RegistryOperation δ → Option Event
  | .dispatch frame => frame.posted?.bind fun (posted, event) =>
      if posted = messageType then some event else none
  | _ => none

theorem registers?_other {operation : RegistryOperation δ} {owner : δ}
    (hother : ∀ messageType, operation ≠ .register messageType owner) (asked : UInt8) :
    operation.registers? asked ≠ some owner := by
  cases operation with
  | register messageType registered =>
      rw [registers?]
      split
      · intro hsame
        cases hsame
        exact hother messageType rfl
      · exact nofun
  | isRegistered messageType => exact nofun
  | bringUp messageType => exact nofun
  | dispatch frame => exact nofun

theorem firstOwner?_concat_iff {operation : RegistryOperation δ} {owner : δ}
    (hother : ∀ messageType, operation ≠ .register messageType owner)
    (earlier : List (RegistryOperation δ)) (asked : UInt8) :
    firstOwner? (earlier ++ [operation]) asked = some owner ↔
      firstOwner? earlier asked = some owner := by
  rw [firstOwner?_concat]
  cases firstOwner? earlier asked with
  | none =>
      rw [Option.none_or]
      exact ⟨fun hnew => absurd hnew (registers?_other hother asked), nofun⟩
  | some first => rfl

theorem eachAfter_append {α : Type}
    (say : List (RegistryOperation δ) → RegistryOperation δ → α)
    (earlier operations later : List (RegistryOperation δ)) :
    eachAfter say earlier (operations ++ later) =
      eachAfter say earlier operations ++ eachAfter say (earlier ++ operations) later := by
  induction operations generalizing earlier with
  | nil => rw [List.append_nil]; rfl
  | cons operation operations ih =>
      rw [List.cons_append, eachAfter, ih, List.append_assoc]
      rfl

theorem firstOwner?_ne {operations : List (RegistryOperation δ)} {owner : δ}
    (hothers : ∀ other, .register other owner ∉ operations) (asked : UInt8) :
    firstOwner? operations asked ≠ some owner := by
  intro hfirst
  obtain ⟨operation, hmem, hregisters⟩ := List.exists_of_findSome?_eq_some hfirst
  refine registers?_other ?_ asked hregisters
  rintro other rfl
  exact hothers other hmem

variable [DecidableEq δ]

theorem attention_handed {earlier : List (RegistryOperation δ)} {owner : δ} {messageType : UInt8}
    {stands : Prop} [Decidable stands]
    (howns : ∀ asked, firstOwner? earlier asked = some owner ↔ asked = messageType ∧ stands)
    (operation : RegistryOperation δ) :
    (operation.attention earlier).filterMap (Attention.eventFor? owner) =
      if stands then (operation.dispatches? messageType).toList else [] := by
  cases operation with
  | register registered other => exact (ite_self []).symm
  | isRegistered asked => exact (ite_self []).symm
  | bringUp asked =>
      rw [attention]
      cases firstOwner? earlier asked with
      | none => exact (ite_self []).symm
      | some other => exact (ite_self []).symm
  | dispatch frame =>
      rw [attention, dispatches?, receiver?]
      cases frame.posted? with
      | none => exact (ite_self []).symm
      | some posted =>
          rcases posted with ⟨posted, event⟩
          dsimp only [Option.bind_some]
          by_cases hours : firstOwner? earlier posted = some owner
          · obtain ⟨rfl, hstands⟩ := (howns posted).mp hours
            rw [hours, if_pos hstands, if_pos rfl]
            simp [Attention.eventFor?]
          · have hnothing : (if stands then
                (if posted = messageType then some event else none).toList else []) = [] := by
              by_cases hstands : stands
              · have hother : posted ≠ messageType := fun hsame =>
                  hours ((howns posted).mpr ⟨hsame, hstands⟩)
                rw [if_pos hstands, if_neg hother]
                rfl
              · exact if_neg hstands
            rw [hnothing]
            cases hfirst : firstOwner? earlier posted with
            | none => rfl
            | some other =>
                have hapart : other ≠ owner := by
                  rintro rfl
                  exact hours hfirst
                simp [Attention.eventFor?, hapart]

/-- **A peripheral that is not named again is handed the events of the type it owns**, and no
    others. -/
theorem eachAfter_handed {earlier operations : List (RegistryOperation δ)} {owner : δ}
    {messageType : UInt8} {stands : Prop} [Decidable stands]
    (howns : ∀ asked, firstOwner? earlier asked = some owner ↔ asked = messageType ∧ stands)
    (hothers : ∀ other, .register other owner ∉ operations) :
    (eachAfter attention earlier operations).flatten.filterMap (Attention.eventFor? owner) =
      if stands then operations.filterMap (dispatches? messageType) else [] := by
  induction operations generalizing earlier with
  | nil => exact (ite_self []).symm
  | cons operation later ih =>
      have hother : ∀ other, operation ≠ .register other owner := by
        rintro other rfl
        exact hothers other List.mem_cons_self
      have hlater := ih
        (fun asked => (firstOwner?_concat_iff hother earlier asked).trans (howns asked))
        (fun other hmem => hothers other (List.mem_cons_of_mem operation hmem))
      rw [eachAfter, List.flatten_cons, List.filterMap_append, attention_handed howns, hlater,
        filterMap_cons_toList]
      by_cases hstands : stands
      · rw [if_pos hstands, if_pos hstands, if_pos hstands]
      · rw [if_neg hstands, if_neg hstands, if_neg hstands]
        rfl

/-- **What one peripheral is handed.** If it is named by one registration only, then from there on
    it is handed the events of its type, provided that the type was one and was not yet taken. -/
theorem handed_since {before later : List (RegistryOperation δ)} {messageType : UInt8} {owner : δ}
    (hothers : ∀ other, .register other owner ∉ before ++ later) :
    (eachAfter attention [] (before ++ .register messageType owner :: later)).flatten.filterMap
        (Attention.eventFor? owner) =
      if messageType.toNat < 16 ∧ firstOwner? before messageType = none then
        later.filterMap (dispatches? messageType)
      else [] := by
  have hbefore : ∀ other, RegistryOperation.register other owner ∉ before := fun other hmem =>
    hothers other (List.mem_append_left later hmem)
  have hlater : ∀ other, RegistryOperation.register other owner ∉ later := fun other hmem =>
    hothers other (List.mem_append_right before hmem)
  have hnothing : (eachAfter attention [] before).flatten.filterMap (Attention.eventFor? owner) =
      [] := by
    have hnobody : ∀ asked, firstOwner? [] asked = some owner ↔ asked = messageType ∧ False :=
      fun asked => ⟨nofun, fun hboth => hboth.2.elim⟩
    rw [eachAfter_handed hnobody hbefore, if_neg id]
  have howns : ∀ asked,
      firstOwner? (before ++ [.register messageType owner]) asked = some owner ↔
        asked = messageType ∧ (messageType.toNat < 16 ∧ firstOwner? before messageType = none) := by
    intro asked
    have hnotbefore := firstOwner?_ne hbefore asked
    rw [firstOwner?_concat, registers?]
    constructor
    · intro hfirst
      cases hearlier : firstOwner? before asked with
      | some first =>
          rw [hearlier] at hfirst hnotbefore
          exact absurd hfirst hnotbefore
      | none =>
          rw [hearlier, Option.none_or] at hfirst
          split at hfirst
          · rename_i hplace
            obtain ⟨rfl, hrange⟩ := hplace
            exact ⟨rfl, hrange, hearlier⟩
          · cases hfirst
    · rintro ⟨rfl, hrange, hfree⟩
      rw [hfree, if_pos ⟨rfl, hrange⟩]
      rfl
  rw [eachAfter_append, List.flatten_append, List.filterMap_append, hnothing, List.nil_append,
    eachAfter, List.flatten_cons]
  exact eachAfter_handed howns hlater

end RegistryOperation

namespace Registry

variable {ρ π δ : Type} [Peripherals π δ]

open RegistryOperation

/-- **The first registration stays.** From an empty registry on, operations come to their end if
    requests do. A refused registration changes nothing. What each operation is told, and what it
    does to the peripherals, depends on the operations before it as `reply` and `attention` say, and
    the record of this changes nothing. A peripheral that is named by one registration only is
    handed the events of its type that are dispatched from there on, if it was the first and the
    type is one, and otherwise nothing. -/
theorem first_registration_stays [DecidableEq δ] (requester : Requester ρ) (devices : π) (line : ρ)
    (operations : List (RegistryOperation δ)) :
    ((∀ bytes line, (requester.request bytes line).isSome) →
      (performAll (perform requester) operations (fresh devices line)).isSome ∧
        (performAll (perform requester) operations
          (fresh ⟨devices, []⟩ line : Registry ρ (Attended π δ) δ)).isSome) ∧
    (∀ (registry after : Registry ρ π δ) (messageType : UInt8) (owner : δ) (refusal : Refusal),
      registry.perform requester (.register messageType owner) =
          some (.registered (.error refusal), after) →
        after = registry) ∧
    ∀ (replies : List Reply) (after : Registry ρ (Attended π δ) δ),
      performAll (perform requester) operations (fresh ⟨devices, []⟩ line) =
        some (replies, after) →
      performAll (perform requester) operations (fresh devices line) =
          some (replies, after.unattended) ∧
        replies = eachAfter reply [] operations ∧
        after.devices.history = (eachAfter attention [] operations).flatten ∧
        ∀ before later messageType owner,
          operations = before ++ .register messageType owner :: later →
          (∀ other, .register other owner ∉ before ++ later) →
          after.devices.history.filterMap (Attention.eventFor? owner) =
            if messageType.toNat < 16 ∧ firstOwner? before messageType = none then
              later.filterMap (dispatches? messageType)
            else [] := by
  refine ⟨?_, ?_, ?_⟩
  · intro hanswered
    exact ⟨performAll_isSome hanswered operations _, performAll_isSome hanswered operations _⟩
  · intro registry after messageType owner refusal hdone
    dsimp only [perform] at hdone
    cases hregister : registry.directory.register messageType owner with
    | ok directory =>
        rw [hregister] at hdone
        cases hdone
    | error refusal =>
        rw [hregister] at hdone
        cases hdone
        rfl
  · intro replies after hdone
    have hfresh : Follows [] [] (fresh ⟨devices, []⟩ line : Registry ρ (Attended π δ) δ) :=
      ⟨Directory.owner?_empty, rfl⟩
    obtain ⟨hreplies, hfollows⟩ := hfresh.through hdone
    have hplain := performAll_map (perform_unattended requester) operations
      (fresh ⟨devices, []⟩ line : Registry ρ (Attended π δ) δ)
    rw [hdone] at hplain
    refine ⟨hplain, hreplies, hfollows.history, ?_⟩
    rintro before later messageType owner rfl hothers
    rw [hfollows.history]
    exact handed_since hothers

end Registry

/-- Three probes: one is registered, one comes too late, and one asks for a type that is none. An
    event is dispatched before and one after; bits four to six of its header do not matter. -/
def probedOperations : List (RegistryOperation Nat) :=
  [.dispatch ⟨[0x81, 0x40], by decide, by decide⟩, .register 1 0, .register 1 1, .register 0x10 2,
    .isRegistered 1, .bringUp 1, .dispatch ⟨[0xf1, 0x41], by decide, by decide⟩,
    .dispatch ⟨[0x01, 0x02], by decide, by decide⟩, .dispatch ⟨[0x82, 0x03], by decide, by decide⟩]

def probedLine : StandIn Silent := .fresh [] ⟨⟩

def threeProbes : ProbeRow := ⟨[.fresh 0 none false, .fresh 1 none false, .fresh 2 none false], []⟩

theorem first_registration_stays_probes :
    (∀ bytes line, ((StandIn.requester : Requester (StandIn Silent)).request bytes line).isSome) ∧
    (∀ other, RegistryOperation.register other 0 ∉
      probedOperations.take 1 ++ probedOperations.drop 2) ∧
    (∃ after, Registry.perform StandIn.requester (.fresh threeProbes probedLine)
          (.register 0x10 2) =
        some (.registered (.error (.outOfRange 0x10)), after) ∧
      after = .fresh threeProbes probedLine) ∧
    ∃ after,
      performAll (Registry.perform StandIn.requester) probedOperations
        (.fresh (Attended.mk threeProbes []) probedLine) =
          some ([.flag false, .registered (.ok ()), .registered (.error (.taken 1)),
            .registered (.error (.outOfRange 0x10)), .flag true, .flag true, .flag true,
            .flag false, .flag false], after) ∧
      after.devices.history = [.began 0, .ended 0, .handed 0 ⟨⟨0xf1⟩, [0x41]⟩] ∧
      after.devices.history.filterMap (Attention.eventFor? 0) = [⟨⟨0xf1⟩, [0x41]⟩] := by
  have hanswered : ∀ bytes line,
      ((StandIn.requester : Requester (StandIn Silent)).request bytes line).isSome :=
    fun bytes line => rfl
  have hothers : ∀ other, RegistryOperation.register other 0 ∉
      probedOperations.take 1 ++ probedOperations.drop 2 := by
    simp [probedOperations]
  obtain ⟨hends, hrefused, hcourse⟩ := Registry.first_registration_stays
    StandIn.requester threeProbes probedLine probedOperations
  have hkept := hrefused (.fresh threeProbes probedLine) _ 0x10 2 (.outOfRange 0x10) rfl
  obtain ⟨⟨replies, after⟩, hdone⟩ := Option.isSome_iff_exists.mp (hends hanswered).2
  obtain ⟨-, rfl, hhistory, hhanded⟩ := hcourse replies after hdone
  refine ⟨hanswered, hothers, ⟨_, rfl, hkept⟩, after, hdone, ?_, ?_⟩
  · rw [hhistory]
    rfl
  · rw [hhanded _ _ 1 0 rfl hothers]
    rfl

end EcLink
