import EcLink.Probe
import EcLink.Proofs.StartUp
import EcLink.Proofs.TransactionOutcomes

/-!
# The order of start-up

Peripherals are registered in any order and brought up in that of their message types. What their
requests come to does not matter, and neither does what the controller does, as long as transactions
come to an end. `Attended` peripherals write down what happens to them, which changes nothing else
(`Host.start_unattended`), and **the whole of a start-up can be read off what they wrote**: after
the events of the flush and of the host's own requests there is, for one registered peripheral after
the other, its bring-up and then the events that came in meanwhile.
-/

namespace EcLink

/-! ### Peripherals that keep a record -/

/-- Something that happens to a peripheral. -/
inductive Attention (δ : Type)
  | began (owner : δ)
  | ended (owner : δ)
  | handed (owner : δ) (event : Event)
  deriving DecidableEq, Repr

/-- Peripherals that do as those inside them, with all that happened to them. -/
structure Attended (π δ : Type) where
  devices : π
  history : List (Attention δ)
  deriving DecidableEq, Repr

namespace Attended

variable {π δ : Type} [Peripherals π δ]

/-- The record of a bring-up continues the one that there was when it began: an event that was
    handed over in the middle of it would be missing. -/
def bringUp (owner : δ) (attended : Attended π δ) : Dialogue (Attended π δ) :=
  (Peripherals.bringUp owner attended.devices).bind fun devices =>
    .done ⟨devices, attended.history ++ [.began owner, .ended owner]⟩

def handle (owner : δ) (event : Event) (attended : Attended π δ) : Attended π δ × List Notice :=
  let (devices, notices) := Peripherals.handle owner event attended.devices
  (⟨devices, attended.history ++ [.handed owner event]⟩, notices)

instance : Peripherals (Attended π δ) δ where
  bringUp := bringUp
  handle := handle

/-- A bring-up goes as it does without the record, which is continued at its end. -/
theorem run_bringUp {ρ : Type} (requester : Requester ρ) (owner : δ) (attended : Attended π δ)
    (world : ρ) :
    (Peripherals.bringUp owner attended).run requester world =
      ((Peripherals.bringUp owner attended.devices).run requester world).map
        fun (devices, after) =>
          (⟨devices, attended.history ++ [.began owner, .ended owner]⟩, after) := by
  have hrun := Dialogue.run_bind requester (Peripherals.bringUp owner attended.devices)
    (fun devices => .done (Attended.mk devices
      (attended.history ++ [.began owner, .ended owner]))) world
  rw [Option.map_eq_bind]
  exact hrun

theorem handleAll_inside (calls : List (δ × Event)) (attended : Attended π δ) :
    (handleAll calls attended).1.devices = (handleAll calls attended.devices).1 ∧
      (handleAll calls attended).2 = (handleAll calls attended.devices).2 := by
  induction calls generalizing attended with
  | nil => exact ⟨rfl, rfl⟩
  | cons call calls ih =>
      obtain ⟨hdevices, hnotices⟩ := ih (Peripherals.handle call.1 call.2 attended).1
      constructor
      · exact hdevices
      · simp only [handleAll, hnotices]
        rfl

theorem handleAll_history (calls : List (δ × Event)) (attended : Attended π δ) :
    (handleAll calls attended).1.history =
      attended.history ++ calls.map fun call => .handed call.1 call.2 := by
  induction calls generalizing attended with
  | nil => exact (List.append_nil _).symm
  | cons call calls ih =>
      have hfirst : (Peripherals.handle call.1 call.2 attended).1.history =
          attended.history ++ [.handed call.1 call.2] := rfl
      simp only [handleAll]
      rw [ih, hfirst, List.append_assoc, List.map_cons]
      rfl

end Attended

/-! ### Peripherals without the record -/

namespace Host

variable {σ κ π δ : Type}

/-- The same host without the record. -/
def unattended (host : Host σ κ (Attended π δ) δ) : Host σ κ π δ :=
  { host with devices := host.devices.devices }

theorem hold_unattended [Board σ] [Console κ] (polls : Nat) (dialogue : Dialogue Unit)
    (host : Host σ κ (Attended π δ) δ) :
    (host.hold polls dialogue).map unattended = host.unattended.hold polls dialogue := by
  unfold hold converseQuietly unattended
  cases host.channel.converse polls dialogue <;> rfl

variable [Console κ] [Peripherals π δ]

theorem handled_unattended (calls : List (δ × Event)) (host : Host σ κ (Attended π δ) δ) :
    (host.handled calls).unattended = host.unattended.handled calls := by
  obtain ⟨hdevices, hnotices⟩ := Attended.handleAll_inside calls host.devices
  simp only [handled, unattended, hdevices, hnotices]

theorem dispatchPending_unattended (host : Host σ κ (Attended π δ) δ) :
    host.dispatchPending.unattended = host.unattended.dispatchPending := by
  rw [dispatchPending_eq, dispatchPending_eq]
  exact handled_unattended _ (host.withEmptied host.channel)

variable [Board σ]

theorem converse_attended (polls : Nat) (owner : δ) (attended : Attended π δ)
    (channel : Channel σ κ) :
    channel.converse polls (Peripherals.bringUp owner attended) =
      (channel.converse polls (Peripherals.bringUp owner attended.devices)).map
        fun (devices, after) =>
          (⟨devices, attended.history ++ [.began owner, .ended owner]⟩, after) :=
  attended.run_bringUp (Channel.requester polls) owner channel

theorem converse_history {polls : Nat} {owner : δ} {attended devices : Attended π δ}
    {channel after : Channel σ κ}
    (hconverse : channel.converse polls (Peripherals.bringUp owner attended) =
      some (devices, after)) :
    devices.history = attended.history ++ [.began owner, .ended owner] := by
  rw [converse_attended] at hconverse
  obtain ⟨⟨inner, last⟩, -, hend⟩ := Option.map_eq_some_iff.mp hconverse
  cases hend
  rfl

theorem flush_unattended (polls : Nat) (host : Host σ κ (Attended π δ) δ) :
    (host.flush polls).map unattended = host.unattended.flush polls := by
  rw [flush_eq, flush_eq, Option.map_map]
  apply Option.map_congr
  rintro ⟨outcome, drained⟩ _
  exact handled_unattended _ (host.withEmptied (sayFlush outcome drained))

theorem bringUp_unattended (polls : Nat) (messageType : UInt8)
    (host : Host σ κ (Attended π δ) δ) :
    (host.bringUp polls messageType).map unattended =
      host.unattended.bringUp polls messageType := by
  have howner : host.unattended.directory.owner? messageType =
      host.directory.owner? messageType := rfl
  unfold bringUp converseQuietly
  rw [howner]
  cases host.directory.owner? messageType with
  | none => rfl
  | some owner =>
      dsimp only
      rw [converse_attended]
      change _ = Option.bind (Option.bind
        (host.channel.converse polls (Peripherals.bringUp owner host.devices.devices)) _) _
      cases host.channel.converse polls (Peripherals.bringUp owner host.devices.devices) with
      | none => rfl
      | some done =>
          rcases done with ⟨devices, channel⟩
          exact congrArg some (dispatchPending_unattended _)

theorem bringUps_unattended (polls : Nat) (types : List UInt8)
    (host : Host σ κ (Attended π δ) δ) :
    (types.foldlM (bringUp polls) host).map unattended =
      types.foldlM (bringUp polls) host.unattended := by
  induction types generalizing host with
  | nil => rfl
  | cons messageType later ih =>
      rw [List.foldlM_cons, List.foldlM_cons, ← bringUp_unattended]
      cases host.bringUp polls messageType with
      | none => rfl
      | some middle => exact ih middle

/-- **Keeping a record changes nothing**: but for it, start-up goes as it does with the peripherals
    inside. -/
theorem start_unattended (polls : Nat) (host : Host σ κ (Attended π δ) δ) :
    (host.start polls).map unattended = host.unattended.start polls := by
  rw [start_eq, start_eq, ← flush_unattended, Option.bind_map, Option.map_bind]
  apply Option.bind_congr
  intro flushed _
  have hopening : flushed.unattended.hold polls (SystemRequest.opening flushed.config) =
      (flushed.hold polls (SystemRequest.opening flushed.config)).map unattended :=
    (hold_unattended polls _ flushed).symm
  change Option.map unattended _ = Option.bind (flushed.unattended.hold polls
    (SystemRequest.opening flushed.config)) _
  rw [hopening, Option.bind_map, Option.map_bind]
  apply Option.bind_congr
  intro talked _
  rw [Function.comp_apply, Function.comp_apply, ← dispatchPending_unattended,
    ← bringUps_unattended, Option.map_map, Option.map_map]
  rfl

end Host

/-! ### What is written down of a stretch -/

/-- The events of a stretch, as they are handed to the peripherals that own them. -/
def Stretch.handed {δ : Type} (directory : Directory δ) (stretch : Stretch) :
    List (Attention δ) :=
  (stretch.delivered directory).map fun call => .handed call.1 call.2

/-- A bring-up, and what followed it. -/
def Raised.attention {δ : Type} (directory : Directory δ) (one : Raised δ) : List (Attention δ) :=
  [.began one.owner, .ended one.owner] ++ one.stretch.handed directory

/-! ### Who is registered -/

namespace Directory

variable {Owner : Type}

/-- All registrations, by message type. -/
def registrations (directory : Directory Owner) : List (UInt8 × Owner) :=
  Host.messageTypes.filterMap fun messageType =>
    (directory.owner? messageType).map fun owner => (messageType, owner)

theorem lt_of_owner? {directory : Directory Owner} {messageType : UInt8} {owner : Owner}
    (howner : directory.owner? messageType = some owner) :
    messageType.toNat < messageTypeCount := by
  unfold owner? at howner
  have hslot := Option.join_eq_some_iff.mp howner
  obtain ⟨hbound, -⟩ := Vector.getElem?_eq_some_iff.mp hslot
  exact hbound

theorem mem_registrations {directory : Directory Owner} {messageType : UInt8} {owner : Owner} :
    (messageType, owner) ∈ directory.registrations ↔
      directory.owner? messageType = some owner := by
  unfold registrations
  rw [List.mem_filterMap]
  constructor
  · rintro ⟨asked, -, hasked⟩
    obtain ⟨found, hfound, hpair⟩ := Option.map_eq_some_iff.mp hasked
    cases hpair
    exact hfound
  · intro howner
    refine ⟨messageType, ?_, by rw [howner]; rfl⟩
    apply List.mem_map.mpr
    exact ⟨messageType.toNat, List.mem_range.mpr (lt_of_owner? howner), UInt8.ofNat_toNat⟩

theorem registrations_ascend (directory : Directory Owner) :
    (directory.registrations.map Prod.fst).Pairwise (· < ·) := by
  have htypes : Host.messageTypes.Pairwise (· < ·) := by decide
  apply List.Pairwise.sublist _ htypes
  -- A type that nobody owns is left out; the others stay as they are.
  unfold registrations
  generalize Host.messageTypes = types
  induction types with
  | nil => exact .slnil
  | cons messageType later ih =>
      rw [List.filterMap_cons]
      cases directory.owner? messageType with
      | none => exact ih.cons _
      | some owner => exact ih.cons_cons _

end Directory

/-! ### The record of a start-up -/

namespace Host

variable {σ κ π δ : Type} [Console κ] [Peripherals π δ]

theorem dispatched_history (channel : Channel σ κ) (stretch : Stretch)
    (host : Host σ κ (Attended π δ) δ) :
    (host.dispatched channel stretch).devices.history =
      host.devices.history ++ stretch.handed host.directory :=
  Attended.handleAll_history _ host.devices

variable [Board σ]

theorem BringsUp.registered {polls : Nat} {types : List UInt8} {raised : List (Raised δ)}
    {host after : Host σ κ π δ} (hraised : BringsUp polls types raised host after) :
    raised.map (fun one => (one.messageType, one.owner)) =
      types.filterMap fun messageType =>
        (host.directory.owner? messageType).map fun owner => (messageType, owner) := by
  induction hraised with
  | done host => rfl
  | nobody hnobody hlater ih =>
      rw [List.filterMap_cons, hnobody]
      exact ih
  | owned howner hconverse hstretch hparked hlater ih =>
      rw [List.filterMap_cons, howner, List.map_cons, ih]
      rfl

theorem BringsUp.pending {polls : Nat} {types : List UInt8} {raised : List (Raised δ)}
    {host after : Host σ κ π δ} (hraised : BringsUp polls types raised host after)
    (hempty : host.channel.pending = .empty) : after.channel.pending = .empty := by
  induction hraised with
  | done host => exact hempty
  | nobody hnobody hlater ih => exact ih hempty
  | owned howner hconverse hstretch hparked hlater ih => exact ih rfl

theorem BringsUp.history {polls : Nat} {types : List UInt8} {raised : List (Raised δ)}
    {host after : Host σ κ (Attended π δ) δ} (hraised : BringsUp polls types raised host after) :
    after.devices.history =
      host.devices.history ++ raised.flatMap (Raised.attention host.directory) := by
  induction hraised with
  | done host => exact (List.append_nil _).symm
  | nobody hnobody hlater ih => exact ih
  | owned howner hconverse hstretch hparked hlater ih =>
      rw [ih, dispatched_history, List.flatMap_cons, Raised.attention]
      dsimp only
      rw [converse_history hconverse]
      simp only [List.append_assoc]
      rfl

theorem StartsUp.history {polls : Nat} {flushed opened : Stretch} {raised : List (Raised δ)}
    {host after : Host σ κ (Attended π δ) δ}
    (hstarts : StartsUp polls flushed opened raised host after) :
    after.devices.history = host.devices.history ++ flushed.handed host.directory ++
      opened.handed host.directory ++ raised.flatMap (Raised.attention host.directory) := by
  cases hstarts with
  | intro hreceive hflushed hdrained hready hconverse hopened hasked hraised =>
      have hlast := hraised.history
      rw [dispatched_history, hready, dispatched_history] at hlast
      exact hlast

theorem StartsUp.registered {polls : Nat} {flushed opened : Stretch} {raised : List (Raised δ)}
    {host after : Host σ κ π δ} (hstarts : StartsUp polls flushed opened raised host after) :
    raised.map (fun one => (one.messageType, one.owner)) = host.directory.registrations := by
  cases hstarts with
  | intro hreceive hflushed hdrained hready hconverse hopened hasked hraised =>
      have hregistered := hraised.registered
      rw [hready] at hregistered
      exact hregistered

theorem StartsUp.pending {polls : Nat} {flushed opened : Stretch} {raised : List (Raised δ)}
    {host after : Host σ κ π δ} (hstarts : StartsUp polls flushed opened raised host after) :
    after.channel.pending = .empty := by
  cases hstarts with
  | intro hreceive hflushed hdrained hready hconverse hopened hasked hraised =>
      exact hraised.pending rfl

/-- **Start-up comes to its end, and in order.** On every board on which transactions end, it ends.
    It goes as it does with the peripherals that keep no record. Each registered peripheral has then
    been brought up once, and nobody else, in ascending order of the message types; no event was
    handed over while one was brought up; what waited in the end of a bring-up was handed over
    before the next one; and nothing waits any more. -/
theorem start_in_order (host : Host σ κ (Attended π δ) δ) :
    (host.channel.link.AlwaysReturns → Returns fun polls => host.start polls) ∧
    ∀ polls after, host.start polls = some after →
      host.unattended.start polls = some after.unattended ∧
      ∃ flushed opened raised, StartsUp polls flushed opened raised host after ∧
        (raised.map Raised.messageType).Pairwise (· < ·) ∧
        (∀ messageType owner, host.directory.owner? messageType = some owner ↔
          ∃ one ∈ raised, one.messageType = messageType ∧ one.owner = owner) ∧
        after.devices.history = host.devices.history ++ flushed.handed host.directory ++
          opened.handed host.directory ++ raised.flatMap (Raised.attention host.directory) ∧
        after.channel.pending = .empty := by
  constructor
  · exact start_returns
  · intro polls after hdone
    obtain ⟨flushed, opened, raised, hstarts⟩ := start_startsUp hdone
    have hregistered := hstarts.registered
    refine ⟨?_, flushed, opened, raised, hstarts, ?_, ?_, hstarts.history, hstarts.pending⟩
    · rw [← start_unattended, hdone]
      rfl
    · have hascend := host.directory.registrations_ascend
      rw [← hregistered, List.map_map] at hascend
      exact hascend
    · intro messageType owner
      rw [← Directory.mem_registrations, ← hregistered, List.mem_map]
      simp only [Prod.mk.injEq]

end Host

/-! ### A controller that only ever stops -/

namespace Link

variable {κ : Type} [Console κ]

theorem drive_bus (level : Level) (link : Link ScriptedBoard κ) :
    ScriptedBoard.bus (link.drive level).2.board = ScriptedBoard.bus link.board := by
  simp only [drive]
  split
  · rfl
  · rfl

theorem Move.bus_eq {before after : Link ScriptedBoard κ} (hmove : Move before after)
    (hscript : before.script = []) :
    ScriptedBoard.bus after.board = ScriptedBoard.bus before.board := by
  cases hmove with
  | poll => exact (poll_silent hscript).2.1
  | act action =>
      cases action with
      | release => exact drive_bus .high before
      | _ => rfl
  | _ => rfl

/-- **A bus without a script never changes**, whatever is done with the link. -/
theorem Uses.bus_eq {before after : Link ScriptedBoard κ} (huses : Uses before after)
    (hscript : before.script = []) :
    ScriptedBoard.bus after.board = ScriptedBoard.bus before.board := by
  have hmoves : ∀ {middle last : Link ScriptedBoard κ}, Moves middle last → middle.script = [] →
      ScriptedBoard.bus last.board = ScriptedBoard.bus middle.board := by
    intro middle last hmoves hempty
    induction hmoves with
    | refl => rfl
    | @tail second third _ hmove ih =>
        have hsecond : second.script = [] := by
          rw [script, ih]
          exact hempty
        exact (hmove.bus_eq hsecond).trans ih
  induction huses with
  | refl => rfl
  | @tail second third _ huse ih =>
      have hsecond : second.script = [] := by
        rw [script, ih]
        exact hscript
      refine Eq.trans ?_ ih
      cases huse with
      | transact hdone => exact hmoves (transact_moves hdone) hsecond
      | pull => exact drive_bus .low second
      | _ => rfl

theorem respond_stop {status : Status} (hstop : status.isStop = true) (start : Instant)
    (byte : UInt8) (link : Link ScriptedBoard κ) :
    ∃ outcome, (link.respond start status byte).1 = .finished outcome := by
  rw [respond_eq]
  dsimp only
  split
  · exact ⟨_, rfl⟩
  · rename_i hopen
    unfold Reaction.verdict at hopen
    split at hopen
    · cases hopen
    · rw [hstop] at hopen
      cases hopen

/-- Where every poll finds a stop, every call ends with its first poll. -/
theorem alwaysReturns_of_stopped {link : Link ScriptedBoard κ} (hscript : link.script = [])
    (htail : link.tail = .stopped) : link.AlwaysReturns := by
  intro later huses mode
  have hbus := huses.bus_eq hscript
  have hsettled : later.settle.2.script = [] := by
    obtain ⟨-, hstands, -⟩ := settle_stands later
    rw [hstands.script, script, hbus]
    exact hscript
  have hstatus : later.settle.2.poll.1 = .stopped := by
    rw [(poll_silent hsettled).1, settle_tail, tail, hbus]
    exact htail
  have hready : Status.stopped.isReady = true := by decide
  have hturn : later.settle.2.turn later.settle.1 mode 0 =
      later.settle.2.poll.2.respond later.settle.1 .stopped 0 := by
    rw [turn_eq, hstatus, if_pos hready]
  obtain ⟨outcome, houtcome⟩ :=
    respond_stop (by decide : Status.stopped.isStop = true) later.settle.1 0 later.settle.2.poll.2
  rcases hresponse : later.settle.2.poll.2.respond later.settle.1 .stopped 0 with ⟨turn, after⟩
  rw [hresponse] at hturn houtcome
  refine ⟨1, (outcome, after), ?_⟩
  change later.settle.2.turns later.settle.1 1 mode 0 = some (outcome, after)
  rw [turns, hturn]
  dsimp only at houtcome
  rw [houtcome]

end Link

/-- Two probes, and a controller that writes the address over and over and stops every time. -/
def stoppedProbes : Host ScriptedBoard Silent (Attended ProbeRow Nat) Nat :=
  .fresh (.atTime { ScriptedBus.idle .stopped 0 with data := MasterScript.usualAddress } 0) ⟨⟩
    { maxAttempts := 3, globalEvents := false, eventReporting := 0 }
    ⟨⟨[.fresh 0 (some [7, 2]) false, .fresh 1 (some [7, 2]) false], []⟩, []⟩

/-- The probe with the higher message type is registered first. -/
def stoppedHost : Host ScriptedBoard Silent (Attended ProbeRow Nat) Nat :=
  ((stoppedProbes.register 10 0).2.register 3 1).2

/-- The address, where a frame begins with it. -/
def echo : Event := ⟨⟨0x8a⟩, []⟩

/-- All requests fail, and all that comes in are events for the probe that is brought up last. -/
def stoppedHistory : List (Attention Nat) :=
  List.flatten [[.handed 0 ⟨⟨0x8a⟩, [0x8a]⟩], List.replicate 4 (.handed 0 echo),
    [.began 1, .ended 1], List.replicate 3 (.handed 0 echo),
    [.began 0, .ended 0], List.replicate 3 (.handed 0 echo)]

theorem start_in_order_stopped :
    (∃ first, stoppedProbes.register 10 0 = (.ok (), first) ∧
      first.register 3 1 = (.ok (), stoppedHost)) ∧
    stoppedHost.channel.link.AlwaysReturns ∧
    (Returns fun polls => stoppedHost.start polls) ∧
    ∃ after flushed opened raised, stoppedHost.start 1 = some after ∧
      Host.StartsUp 1 flushed opened raised stoppedHost after ∧
      (raised.map Raised.messageType).Pairwise (· < ·) ∧
      after.channel.pending = .empty ∧
      after.devices.history = stoppedHistory := by
  have hreturns : stoppedHost.channel.link.AlwaysReturns :=
    Link.alwaysReturns_of_stopped rfl rfl
  obtain ⟨hends, hcourse⟩ := Host.start_in_order stoppedHost
  have hrun : (stoppedHost.start 1).map (fun after => after.devices.history) =
      some stoppedHistory := by decide +kernel
  obtain ⟨after, hdone, hhistory⟩ := Option.map_eq_some_iff.mp hrun
  obtain ⟨-, flushed, opened, raised, hstarts, hascend, -, -, hempty⟩ := hcourse 1 after hdone
  exact ⟨⟨_, rfl, rfl⟩, hreturns, hends hreturns, after, flushed, opened, raised, hdone, hstarts,
    hascend, hempty, hhistory⟩

end EcLink
