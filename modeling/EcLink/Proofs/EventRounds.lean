import EcLink.Operation
import EcLink.Proofs.EventDispatch
import EcLink.Proofs.PromptTraffic

/-!
# Rounds of event polling

The controller writes one list of bytes after the other and then falls silent, while the host polls
for events in rounds. A round takes as many writes as it has transactions, and whatever a write is
worth goes to the owner of its type before the next one is taken. So it does not matter where one
round ends and the next begins: **some rounds hand over what their writes carry, in order**.
-/

namespace EcLink

/-! ### Silence -/

namespace Link

variable {κ : Type} {polls : Nat} {link : Link ScriptedBoard κ}

/-- The controller is about to write these lists of bytes and nothing more, which takes fewer polls
    than so many. -/
structure Listens (polls : Nat) (lists : List (List UInt8)) (link : Link ScriptedBoard κ) :
    Prop where
  prompt : link.Prompt
  script : link.script = lists.flatMap (MasterScript.writes link.config.address)
  silent : link.tail.isReady = false
  watched : link.script.length < polls

variable [Console κ]

theorem Listens.tell {lists : List (List UInt8)} (hlistens : link.Listens polls lists)
    (notice : Notice) : (link.tell notice).Listens polls lists :=
  ⟨⟨hlistens.prompt.tick, hlistens.prompt.settles⟩, hlistens.script, hlistens.silent,
    hlistens.watched⟩

/-- A call that does not wait for a transaction takes the next one if there is one. -/
theorem Listens.transact {bytes : List UInt8} {later : List (List UInt8)}
    (hlistens : link.Listens polls (bytes :: later)) :
    ∃ after, link.transact polls .nonBlocking = some (writeOutcome bytes, after) ∧
      after.Listens polls later ∧ after.config = link.config := by
  have hscript := hlistens.script
  have hwatched := hlistens.watched
  rw [List.flatMap_cons] at hscript
  rw [hscript, List.length_append] at hwatched
  obtain ⟨after, htransact, hrest, -, hadvances⟩ :=
    hlistens.prompt.transact (.writes bytes) hscript trivial
      (by change (MasterScript.writes _ bytes).length ≤ polls; omega) .nonBlocking
  refine ⟨after, htransact, ⟨hadvances.prompt hlistens.prompt, ?_, ?_, ?_⟩, hadvances.config⟩
  · rw [hrest, hadvances.config]
  · rw [(transact_moves htransact).keep_tail]
    exact hlistens.silent
  · rw [hrest]
    omega

/-- If there is none, it finds the bus idle. -/
theorem Listens.transact_silent (hlistens : link.Listens polls []) :
    ∃ after, link.transact polls .nonBlocking = some (.idle, after) ∧
      after.Listens polls [] ∧ after.config = link.config := by
  obtain ⟨-, hstands, hsettled⟩ := settle_stands link
  have hscript : link.settle.2.script = [] := hstands.script.trans hlistens.script
  obtain ⟨hstatus, hbus, hpolled⟩ := poll_silent hscript
  rw [settle_tail] at hstatus
  obtain ⟨fewer, rfl⟩ : ∃ fewer, polls = fewer + 1 :=
    Nat.exists_eq_add_one.mpr (Nat.zero_lt_of_lt hlistens.watched)
  have hidle : link.settle.2.poll.1.isReady = false := by
    rw [hstatus]
    exact hlistens.silent
  have hconfig : link.settle.2.poll.2.config = link.config := hpolled.trans hsettled.config
  have hempty : link.settle.2.poll.2.script = [] := by
    rw [Link.script, hbus]
    exact hscript
  refine ⟨link.settle.2.poll.2, ?_, ⟨⟨?_, ?_⟩, hempty, ?_, ?_⟩, hconfig⟩
  · change link.settle.2.turns link.settle.1 (fewer + 1) .nonBlocking 0 = _
    rw [turns, turn_eq, hidle, if_neg Bool.false_ne_true, waitOn]
  · rw [Link.tick, hbus]
    exact hsettled.tick.trans hlistens.prompt.tick
  · rw [hconfig]
    exact hlistens.prompt.settles
  · rw [Link.tail, hbus]
    change link.settle.2.tail.isReady = false
    rw [settle_tail]
    exact hlistens.silent
  · rw [hempty]
    exact Nat.succ_pos fewer

end Link

/-! ### One round -/

/-- What writes of these lists of bytes are worth to the owners of message types. -/
def callsOf {δ : Type} (directory : Directory δ) (lists : List (List UInt8)) : List (δ × Event) :=
  lists.filterMap fun bytes => (writeOutcome bytes).frame?.bind directory.route

theorem writeOutcome_goes_on (bytes : List UInt8) :
    (∃ frame, writeOutcome bytes = .received frame) ∨ writeOutcome bytes = .cutShort := by
  unfold writeOutcome
  split
  · exact .inl ⟨_, rfl⟩
  · exact .inr rfl

namespace Host

variable {κ π δ : Type} [Peripherals π δ]

/-- What event polling has come to: these lists of bytes are still to be written, and these calls
    of owners were made. -/
structure Hears (polls : Nat) (lists : List (List UInt8)) (calls : List (δ × Event))
    (before after : Host ScriptedBoard κ π δ) : Prop where
  listens : after.channel.link.Listens polls lists
  nothing_waits : after.channel.pending = .empty
  config : after.config = before.config
  directory : after.directory = before.directory
  devices : after.devices = (handleAll calls before.devices).1

variable {polls : Nat} {lists : List (List UInt8)}

theorem Hears.trans {more : List (List UInt8)} {calls others : List (δ × Event)}
    {first second third : Host ScriptedBoard κ π δ}
    (hearlier : Hears polls lists calls first second)
    (hlater : Hears polls more others second third) :
    Hears polls more (calls ++ others) first third := by
  refine ⟨hlater.listens, hlater.nothing_waits, hlater.config.trans hearlier.config,
    hlater.directory.trans hearlier.directory, ?_⟩
  rw [hlater.devices, hearlier.devices, handleAll_append]

variable [Console κ] {host : Host ScriptedBoard κ π δ}

/-- A transaction, with what it brought handed over. -/
theorem hears_of_transact {outcome : Outcome} {link : Link ScriptedBoard κ}
    (htransact : host.channel.link.transact polls .nonBlocking = some (outcome, link))
    (hlistens : link.Listens polls lists) (hconfig : link.config = host.config)
    (hempty : host.channel.pending = .empty) :
    ∃ received, host.receiveQuietly polls .nonBlocking = some (outcome, received) ∧
      Hears polls lists (outcome.frame?.bind host.directory.route).toList host
        received.dispatchPending := by
  have hreceive : host.channel.receive polls .nonBlocking =
      some (outcome, { host.channel with link }.keep outcome) := by
    rw [Channel.receive_eq, htransact]
    rfl
  refine ⟨{ host with channel := { host.channel with link }.keep outcome }, ?_, ?_⟩
  · rw [receiveQuietly, hreceive]
    rfl
  · rw [receive_dispatches hreceive hempty]
    have hkept : (({ host.channel with link }.keep outcome).link.Listens polls lists) ∧
        (({ host.channel with link }.keep outcome).link.config = host.config) := by
      rcases Channel.keep_link outcome { host.channel with link } with hsame | htold
      · rw [hsame]
        exact ⟨hlistens, hconfig⟩
      · rw [htold]
        exact ⟨hlistens.tell _, hconfig⟩
    obtain ⟨⟨hprompt, hscript, hsilent, hwatched⟩, hconfig⟩ := hkept
    exact ⟨⟨⟨hprompt.tick, hprompt.settles⟩, hscript, hsilent, hwatched⟩, rfl, hconfig, rfl, rfl⟩

/-- **A round takes as many writes as it has transactions**, and hands over what they carry. -/
theorem serviceEvents_hears (reads : Nat) (hlistens : host.channel.link.Listens polls lists)
    (hempty : host.channel.pending = .empty) :
    ∃ after, host.serviceEvents polls reads = some after ∧
      Hears polls (lists.drop reads) (callsOf host.directory (lists.take reads)) host after := by
  induction reads generalizing host lists with
  | zero => exact ⟨host, rfl, hlistens, hempty, rfl, rfl, rfl⟩
  | succ reads ih =>
      cases lists with
      | nil =>
          obtain ⟨link, htransact, hstill, hconfig⟩ := hlistens.transact_silent
          obtain ⟨received, hreceived, hears⟩ :=
            hears_of_transact htransact hstill hconfig hempty
          refine ⟨received.dispatchPending, ?_, hears⟩
          rw [serviceEvents, hreceived]
          rfl
      | cons bytes later =>
          obtain ⟨link, htransact, hstill, hconfig⟩ := hlistens.transact
          obtain ⟨received, hreceived, hears⟩ :=
            hears_of_transact htransact hstill hconfig hempty
          obtain ⟨after, hserviced, hlater⟩ := ih hears.listens hears.nothing_waits
          refine ⟨after, ?_, ?_⟩
          · rw [serviceEvents, hreceived]
            rcases writeOutcome_goes_on bytes with ⟨frame, hframe⟩ | hcut
            · rw [hframe]
              exact hserviced
            · rw [hcut]
              exact hserviced
          · have hcalls : callsOf host.directory ((bytes :: later).take (reads + 1)) =
                ((writeOutcome bytes).frame?.bind host.directory.route).toList ++
                  callsOf host.directory (later.take reads) := by
              rw [List.take_succ_cons, callsOf, callsOf, filterMap_cons_toList]
            rw [hcalls, List.drop_succ_cons]
            rw [hears.directory] at hlater
            exact hears.trans hlater

/-- **It does not matter where rounds begin and end.** So many rounds take as many writes as they
    have transactions altogether. -/
theorem pollEvents_hears (rounds : Nat) (hlistens : host.channel.link.Listens polls lists)
    (hempty : host.channel.pending = .empty) :
    ∃ after, performAll (Host.perform polls) (List.replicate rounds .pollEvents) host =
        some (List.replicate rounds .nothing, after) ∧
      Hears polls (lists.drop (rounds * host.config.maxEventReads.toNat))
        (callsOf host.directory (lists.take (rounds * host.config.maxEventReads.toNat)))
        host after := by
  induction rounds generalizing host lists with
  | zero =>
      rw [Nat.zero_mul]
      exact ⟨host, rfl, hlistens, hempty, rfl, rfl, rfl⟩
  | succ rounds ih =>
      obtain ⟨middle, hserviced, hears⟩ :=
        serviceEvents_hears host.config.maxEventReads.toNat hlistens hempty
      obtain ⟨after, hperformed, hlater⟩ := ih hears.listens hears.nothing_waits
      rw [hears.config, hears.directory, List.drop_drop] at hlater
      have hround : host.perform polls .pollEvents = some (.nothing, middle) := by
        rw [perform, pollEvents, hserviced]
        rfl
      have hcalls : callsOf host.directory
          (lists.take ((rounds + 1) * host.config.maxEventReads.toNat)) =
          callsOf host.directory (lists.take host.config.maxEventReads.toNat) ++
            callsOf host.directory ((lists.drop host.config.maxEventReads.toNat).take
              (rounds * host.config.maxEventReads.toNat)) := by
        rw [Nat.succ_mul, Nat.add_comm, List.take_add, callsOf, List.filterMap_append]
        rfl
      refine ⟨after, ?_, ?_⟩
      · rw [List.replicate_succ, List.replicate_succ, performAll, hround]
        simp only [Option.bind_eq_bind, Option.bind_some, hperformed]
      · rw [hcalls, Nat.succ_mul, Nat.add_comm]
        exact hears.trans hlater

end Host

end EcLink
