import EcLink.Panel
import EcLink.Proofs.BringUpOrder
import EcLink.Proofs.EventSources
import EcLink.Proofs.RequestRoundTrip

/-!
# What start-up puts on the wire

A controller that answers gets to see **every request of a start-up once and nothing else**: those
of the host, one for each event source among them, and then those of the registered peripherals, by
message type. What a peripheral asks for may go through any dialogue, as long as the requests are
the same whatever the replies are; `Dialogue.Asks` says that they are. `Link.Answers` is a
controller that is about to answer, and one piece of start-up after the other takes its share of the
exchanges.
-/

namespace EcLink

/-! ### Dialogues whose requests are known -/

/-- A dialogue that makes these requests, whatever the replies are, if each of them is answered, and
    comes to such a result. -/
inductive Dialogue.Asks {α : Type} (ends : α → Prop) : Dialogue α → List Payload → Prop
  | done {result : α} (hends : ends result) : Asks ends (.done result) []
  | request {payload : Payload} {requests : List Payload}
      {next : Except RequestError Unit → Dialogue α}
      (hnext : Asks ends (next (.ok ())) requests) :
      Asks ends (.request payload.bytes next) (payload :: requests)
  | takeResponse {requests : List Payload} {next : Option Frame → Dialogue α}
      (hnext : ∀ response, Asks ends (next response) requests) :
      Asks ends (.takeResponse next) requests
  | tell {requests : List Payload} {notice : Notice} {next : Dialogue α}
      (hnext : Asks ends next requests) : Asks ends (.tell notice next) requests

namespace Dialogue

variable {α β : Type} {middle : α → Prop} {ends : β → Prop}

theorem Asks.bind {first : Dialogue α} {after : α → Dialogue β} {requests later : List Payload}
    (hfirst : first.Asks middle requests)
    (hafter : ∀ result, middle result → (after result).Asks ends later) :
    (first.bind after).Asks ends (requests ++ later) := by
  induction hfirst with
  | done hends => exact hafter _ hends
  | request hnext ih => exact .request ih
  | takeResponse hnext ih => exact .takeResponse ih
  | tell hnext ih => exact .tell ih

theorem ask_asks (payload : Payload) :
    (Dialogue.ask payload.bytes).Asks (· = .ok ()) [payload] :=
  .request (.done rfl)

end Dialogue

/-! ### The requests of the host -/

def globalEventsRequest : Payload := ⟨[0x04, 0x00, 0x01], by decide, by decide⟩

def firmwareRequest : Payload := ⟨[0x07, 0x15], by decide, by decide⟩

/-- What a host asks for before it brings its peripherals up. -/
def openingRequests (config : Config) : List Payload :=
  [.noop] ++ ((if config.globalEvents then [globalEventsRequest] else []) ++
    ([firmwareRequest] ++ (setBits config.eventReporting).map sourceRequest))

namespace SystemRequest

theorem reporting_asks {word : RequestError → Notice}
    {asking : Dialogue (Except RequestError Unit)} {requests : List Payload}
    (hasks : asking.Asks (· = .ok ()) requests) :
    (reporting word asking).Asks (fun _ => True) requests := by
  rw [← List.append_nil requests]
  apply hasks.bind
  rintro result rfl
  exact .done trivial

theorem enablingEvents_asks (config : Config) :
    (enablingEvents config).Asks (fun _ => True)
      (if config.globalEvents then [globalEventsRequest] else []) := by
  unfold enablingEvents
  split
  · exact reporting_asks (Dialogue.ask_asks globalEventsRequest)
  · exact .done trivial

theorem reportingVersion_asks : reportingVersion.Asks (fun _ => True) [firmwareRequest] := by
  have hversion : firmwareVersion.Asks (fun _ => True) ([firmwareRequest] ++ []) := by
    apply (Dialogue.ask_asks firmwareRequest).bind
    rintro result rfl
    exact .takeResponse fun _ => .done trivial
  apply hversion.bind
  intro result _
  rcases result with error | version
  · exact .tell (.done trivial)
  · cases version <;> exact .tell (.done trivial)

theorem enablingSources_asks {bits : List Nat} (hbits : ∀ bit ∈ bits, bit < 32) :
    (enablingSources (bits.map fun bit => 1 <<< UInt32.ofNat bit)).Asks (fun _ => True)
      (bits.map sourceRequest) := by
  induction bits with
  | nil => exact .done trivial
  | cons bit later ih =>
      have hfirst := Dialogue.ask_asks (sourceRequest bit)
      have hlater := ih fun bit hbit => hbits bit (List.mem_cons_of_mem _ hbit)
      rw [← eventReporting_eq (hbits bit List.mem_cons_self)] at hfirst
      exact (reporting_asks hfirst).bind fun _ _ => hlater

/-- **Each bit of the mask is a request of its own**, whatever the replies are. -/
theorem opening_asks (config : Config) :
    (opening config).Asks (fun _ => True) (openingRequests config) := by
  apply (reporting_asks (Dialogue.ask_asks .noop)).bind
  intro _ _
  apply (enablingEvents_asks config).bind
  intro _ _
  apply reportingVersion_asks.bind
  intro _ _
  rw [sources_eq]
  exact enablingSources_asks fun bit hbit => lt_of_mem_setBits hbit

end SystemRequest

/-! ### A controller that answers -/

/-- A request, and the frame that answers it. -/
structure Exchange where
  request : Payload
  reply : Frame
  long : 2 ≤ reply.bytes.length

def Exchange.script (address : UInt8) (exchange : Exchange) : List ScriptStep :=
  MasterScript.exchange address exchange.request.bytes.length exchange.reply.bytes

/-- A payload as the controller reads it, with its length before it. -/
def Payload.onWire (payload : Payload) : List UInt8 := .ofNat payload.bytes.length :: payload.bytes

namespace Link

variable {κ : Type} {polls : Nat} {rest : List ScriptStep}

/-- The controller is about to answer these requests, and there are enough polls for it. -/
structure Answers (polls : Nat) (exchanges : List Exchange) (rest : List ScriptStep)
    (link : Link ScriptedBoard κ) : Prop where
  prompt : link.Prompt
  tries : 0 < link.config.maxAttempts.toNat
  script : link.script = exchanges.flatMap (Exchange.script link.config.address) ++ rest
  watched : link.script.length ≤ polls

/-- From one link to another these payloads went out, and so many exchanges are left. -/
structure Talked (polls : Nat) (later : List Exchange) (rest : List ScriptStep)
    (payloads : List Payload) (before after : Link ScriptedBoard κ) : Prop where
  answers : after.Answers polls later rest
  sent : after.board.sentBytes = before.board.sentBytes ++ payloads.flatMap Payload.onWire
  config : after.config = before.config

theorem Answers.talked_of_nothing {later : List Exchange} {link : Link ScriptedBoard κ}
    (hanswers : link.Answers polls later rest) : Talked polls later rest [] link link :=
  ⟨hanswers, (List.append_nil _).symm, rfl⟩

/-- What the console shows makes no difference. -/
theorem Answers.retold {exchanges : List Exchange} {link : Link ScriptedBoard κ}
    (hanswers : link.Answers polls exchanges rest) (console : κ) :
    ({ link with console } : Link ScriptedBoard κ).Answers polls exchanges rest := by
  obtain ⟨⟨htick, hsettles⟩, htries, hscript, hwatched⟩ := hanswers
  exact ⟨⟨htick, hsettles⟩, htries, hscript, hwatched⟩

theorem Talked.trans {later last : List Exchange} {payloads more : List Payload}
    {first second third : Link ScriptedBoard κ}
    (hearlier : Talked polls later rest payloads first second)
    (hlater : Talked polls last rest more second third) :
    Talked polls last rest (payloads ++ more) first third := by
  refine ⟨hlater.answers, ?_, hlater.config.trans hearlier.config⟩
  rw [hlater.sent, hearlier.sent, List.flatMap_append, List.append_assoc]

/-- An exchange that is carried out leaves the others. -/
theorem Answers.talked_of_exchange {exchange : Exchange} {later : List Exchange}
    {link after : Link ScriptedBoard κ} (hanswers : link.Answers polls (exchange :: later) rest)
    (hadvances :
      Advances (exchange.script link.config.address) exchange.request.onWire link after) :
    Talked polls later rest [exchange.request] link after := by
  have hscript := hanswers.script
  have hwatched := hanswers.watched
  rw [List.flatMap_cons, List.append_assoc] at hscript
  rw [hadvances.script, List.length_append] at hwatched
  refine ⟨⟨hadvances.prompt hanswers.prompt, ?_, ?_, by omega⟩, ?_, hadvances.config⟩
  · rw [hadvances.config]
    exact hanswers.tries
  · rw [hadvances.config]
    exact hadvances.script_eq hscript
  · rw [List.flatMap_singleton]
    exact hadvances.sent

/-- A call that does not wait finds an idle controller idle, and it can still answer. -/
theorem talked_of_idle [Console κ] {idle : ScriptStep} {exchanges : List Exchange}
    {link : Link ScriptedBoard κ} (hprompt : link.Prompt)
    (htries : 0 < link.config.maxAttempts.toNat) (hidle : idle.status.isReady = false)
    (hscript : link.script =
      idle :: (exchanges.flatMap (Exchange.script link.config.address) ++ rest))
    (hpolls : link.script.length ≤ polls) :
    ∃ after, link.transact polls .nonBlocking = some (.idle, after) ∧
      Talked polls exchanges rest [] link after := by
  have hpositive : 0 < polls := by
    rw [hscript] at hpolls
    exact Nat.zero_lt_of_lt hpolls
  obtain ⟨after, htransact, hadvances⟩ := transact_idle hscript hidle hpositive
  refine ⟨after, htransact, ⟨hadvances.prompt hprompt, ?_, ?_, ?_⟩, hadvances.sent,
    hadvances.config⟩
  · rw [hadvances.config]
    exact htries
  · rw [hadvances.config]
    exact hadvances.script_eq hscript
  · rw [hadvances.script, List.length_append] at hpolls
    omega

end Link

namespace Channel

variable {κ : Type} [Console κ] {polls : Nat} {channel : Channel ScriptedBoard κ}
  {rest : List ScriptStep}

theorem request_of_exchange {exchange : Exchange} {later : List Exchange}
    (hanswers : channel.link.Answers polls (exchange :: later) rest) :
    ∃ after, channel.request polls exchange.request.bytes = some (.ok (), after) ∧
      Link.Talked polls later rest [exchange.request] channel.link after.link := by
  have hprompt : ({ channel with response := none } : Channel ScriptedBoard κ).link.Prompt :=
    hanswers.prompt
  -- An exchange is what is left of a request without mishaps.
  have hfew : ([] : List (Mishap exchange.request)).length <
      channel.link.config.maxAttempts.toNat := hanswers.tries
  have hscript := hanswers.script
  rw [List.flatMap_cons, List.append_assoc] at hscript
  obtain ⟨made, last, hmade, hthrough⟩ :=
    tries_come_through 1 hprompt exchange.long hfew hscript hanswers.watched
  obtain ⟨once, honce, hreply⟩ := hthrough.answered
  have hnone := (Setbacks.none.addAll_eq_none_iff).mpr ⟨once, honce, _, hreply⟩
  have hattempts : channel.attemptsMade polls exchange.request = some (made, last) := hmade
  have hadvances := hthrough.advances
  refine ⟨{ last with link := last.link.unload }, ?_, hanswers.talked_of_exchange ?_⟩
  · rw [request_eq, hattempts, Option.map_some, conclude, hnone]
  · exact ⟨hadvances.script, hadvances.sent, hadvances.config, hadvances.tick⟩

/-- **A dialogue gets its answers**, and what it asks for goes out. -/
theorem converse_asks {α : Type} {ends : α → Prop} {dialogue : Dialogue α}
    {exchanges later : List Exchange}
    (hasks : dialogue.Asks ends (exchanges.map Exchange.request))
    (hanswers : channel.link.Answers polls (exchanges ++ later) rest) :
    ∃ result after, channel.converse polls dialogue = some (result, after) ∧ ends result ∧
      Link.Talked polls later rest (exchanges.map Exchange.request) channel.link after.link := by
  generalize hrequests : exchanges.map Exchange.request = requests at hasks ⊢
  induction hasks generalizing exchanges channel with
  | @done result hends =>
      obtain rfl := List.map_eq_nil_iff.mp hrequests
      exact ⟨result, channel, rfl, hends, hanswers.talked_of_nothing⟩
  | @request payload requests next hnext ih =>
      obtain ⟨exchange, more, rfl, rfl, hmore⟩ := List.map_eq_cons_iff.mp hrequests
      obtain ⟨middle, hrequest, htalked⟩ := request_of_exchange hanswers
      obtain ⟨result, after, hconverse, hends, hothers⟩ := ih htalked.answers hmore
      refine ⟨result, after, ?_, hends, htalked.trans hothers⟩
      have hbind : channel.converse polls (.request exchange.request.bytes next) =
          (channel.request polls exchange.request.bytes).bind fun (reply, middle) =>
            middle.converse polls (next reply) := rfl
      rw [hbind, hrequest]
      exact hconverse
  | @takeResponse requests next hnext ih =>
      have hleft : channel.takeResponse.2.link.Answers polls (exchanges ++ later) rest := hanswers
      obtain ⟨result, after, hconverse, hends, htalked⟩ := ih channel.takeResponse.1 hleft hrequests
      exact ⟨result, after, hconverse, hends, htalked⟩
  | @tell requests notice next hnext ih =>
      have hleft : (channel.tell notice).link.Answers polls (exchanges ++ later) rest :=
        hanswers.retold _
      obtain ⟨result, after, hconverse, hends, htalked⟩ := ih hleft hrequests
      exact ⟨result, after, hconverse, hends, ⟨htalked.answers, htalked.sent, htalked.config⟩⟩

end Channel

/-! ### Peripherals whose requests are known -/

section

variable {π δ : Type} [Peripherals π δ]

/-- While the state of the peripherals is in order, those that are registered ask for these requests
    when they are brought up, and whatever happens to them leaves the state in order. -/
structure Asking (requests : δ → List Payload) (inOrder : π → Prop) (directory : Directory δ) :
    Prop where
  bringUp : ∀ messageType owner, directory.owner? messageType = some owner →
    ∀ devices, inOrder devices → (Peripherals.bringUp owner devices).Asks inOrder (requests owner)
  handle : ∀ messageType owner, directory.owner? messageType = some owner →
    ∀ event devices, inOrder devices → inOrder (Peripherals.handle owner event devices).1

theorem Asking.handleAll {requests : δ → List Payload} {inOrder : π → Prop}
    {directory : Directory δ} (hasking : Asking requests inOrder directory) (frames : List Frame)
    {devices : π} (horder : inOrder devices) :
    inOrder (handleAll (frames.filterMap directory.route) devices).1 := by
  induction frames generalizing devices with
  | nil => exact horder
  | cons frame later ih =>
      rw [List.filterMap_cons]
      cases hroute : directory.route frame with
      | none => exact ih horder
      | some call =>
          rcases call with ⟨owner, event⟩
          obtain ⟨seen, -, hcall⟩ := Option.bind_eq_some_iff.mp hroute
          obtain ⟨found, howner, hcall⟩ := Option.bind_eq_some_iff.mp hcall
          cases hcall
          exact ih (hasking.handle _ _ howner _ _ horder)

end

/-! ### Pieces of start-up -/

namespace Host

variable {κ π δ : Type} {polls : Nat} {rest : List ScriptStep} {inOrder : π → Prop}

/-- From one host to another these payloads went out, and the peripherals are still in order. -/
structure Talked (polls : Nat) (later : List Exchange) (rest : List ScriptStep)
    (payloads : List Payload) (inOrder : π → Prop) (before after : Host ScriptedBoard κ π δ) :
    Prop where
  link : Link.Talked polls later rest payloads before.channel.link after.channel.link
  directory : after.directory = before.directory
  inOrder : inOrder after.devices

theorem Talked.trans {later last : List Exchange} {payloads more : List Payload}
    {first second third : Host ScriptedBoard κ π δ}
    (hearlier : Talked polls later rest payloads inOrder first second)
    (hlater : Talked polls last rest more inOrder second third) :
    Talked polls last rest (payloads ++ more) inOrder first third :=
  ⟨hearlier.link.trans hlater.link, hlater.directory.trans hearlier.directory, hlater.inOrder⟩

variable [Console κ] {host : Host ScriptedBoard κ π δ}

theorem hold_talked {dialogue : Dialogue Unit} {exchanges later : List Exchange}
    (hasks : dialogue.Asks (fun _ => True) (exchanges.map Exchange.request))
    (horder : inOrder host.devices)
    (hanswers : host.channel.link.Answers polls (exchanges ++ later) rest) :
    ∃ after, host.hold polls dialogue = some after ∧
      Talked polls later rest (exchanges.map Exchange.request) inOrder host after := by
  obtain ⟨result, channel, hconverse, -, htalked⟩ := Channel.converse_asks hasks hanswers
  refine ⟨{ host with channel }, ?_, htalked, rfl, horder⟩
  unfold hold converseQuietly
  rw [hconverse]
  rfl

variable [Peripherals π δ] {requests : δ → List Payload}

/-- Dispatching has nothing to do with the wire. -/
theorem dispatchPending_talked {exchanges : List Exchange}
    (hasking : Asking requests inOrder host.directory) (horder : inOrder host.devices)
    (hanswers : host.channel.link.Answers polls exchanges rest) :
    Talked polls exchanges rest [] inOrder host host.dispatchPending := by
  rw [dispatchPending_eq]
  refine ⟨⟨hanswers.retold _, (List.append_nil _).symm, rfl⟩, rfl, ?_⟩
  exact hasking.handleAll host.channel.pending.frames horder

theorem flush_talked {link : Link ScriptedBoard κ} {exchanges : List Exchange}
    (hasking : Asking requests inOrder host.directory) (horder : inOrder host.devices)
    (htransact : host.channel.link.transact polls .nonBlocking = some (.idle, link))
    (htalked : Link.Talked polls exchanges rest [] host.channel.link link) :
    ∃ after, host.flush polls = some after ∧
      Talked polls exchanges rest [] inOrder host after := by
  have hreceive : host.channel.receive polls .nonBlocking =
      some (.idle, { host.channel with link }) := by
    rw [Channel.receive_eq, htransact]
    rfl
  let drained : Host ScriptedBoard κ π δ := { host with channel := { host.channel with link } }
  have hdispatched : Talked polls exchanges rest [] inOrder drained drained.dispatchPending :=
    dispatchPending_talked hasking horder htalked.answers
  refine ⟨drained.dispatchPending, ?_, ?_, hdispatched.directory, hdispatched.inOrder⟩
  · unfold flush receiveQuietly
    rw [hreceive]
    rfl
  · exact htalked.trans hdispatched.link

theorem bringUp_talked {messageType : UInt8} {owner : δ} {exchanges later : List Exchange}
    (howner : host.directory.owner? messageType = some owner)
    (hasking : Asking requests inOrder host.directory) (horder : inOrder host.devices)
    (hrequests : exchanges.map Exchange.request = requests owner)
    (hanswers : host.channel.link.Answers polls (exchanges ++ later) rest) :
    ∃ after, host.bringUp polls messageType = some after ∧
      Talked polls later rest (requests owner) inOrder host after := by
  have hasks := hasking.bringUp _ _ howner host.devices horder
  rw [← hrequests] at hasks ⊢
  obtain ⟨devices, channel, hconverse, hleft, htalked⟩ := Channel.converse_asks hasks hanswers
  let asked : Host ScriptedBoard κ π δ := { host with channel, devices }
  have hdispatched : Talked polls later rest [] inOrder asked asked.dispatchPending :=
    dispatchPending_talked hasking hleft htalked.answers
  refine ⟨asked.dispatchPending, ?_, ?_, hdispatched.directory, hdispatched.inOrder⟩
  · unfold bringUp converseQuietly
    rw [howner]
    dsimp only
    rw [hconverse]
    rfl
  · rw [← List.append_nil (exchanges.map Exchange.request)]
    exact htalked.trans hdispatched.link

/-- What the owners of these message types ask for. -/
def requestsOf (requests : δ → List Payload) (directory : Directory δ) (types : List UInt8) :
    List Payload :=
  types.flatMap fun messageType => ((directory.owner? messageType).map requests).getD []

theorem requestsOf_messageTypes (requests : δ → List Payload) (directory : Directory δ) :
    requestsOf requests directory messageTypes =
      directory.registrations.flatMap fun registration => requests registration.2 := by
  unfold requestsOf Directory.registrations
  generalize messageTypes = types
  induction types with
  | nil => rfl
  | cons messageType later ih =>
      rw [List.flatMap_cons, List.filterMap_cons, ih]
      cases directory.owner? messageType <;> rfl

/-- **Each bring-up takes its share of the exchanges.** -/
theorem bringUps_talked {types : List UInt8} {exchanges : List Exchange}
    (hasking : Asking requests inOrder host.directory) (horder : inOrder host.devices)
    (hrequests : exchanges.map Exchange.request = requestsOf requests host.directory types)
    (hanswers : host.channel.link.Answers polls exchanges rest) :
    ∃ after, types.foldlM (bringUp polls) host = some after ∧
      Talked polls [] rest (exchanges.map Exchange.request) inOrder host after := by
  induction types generalizing host exchanges with
  | nil =>
      obtain rfl := List.map_eq_nil_iff.mp hrequests
      exact ⟨host, rfl, hanswers.talked_of_nothing, rfl, horder⟩
  | cons messageType later ih =>
      rw [requestsOf, List.flatMap_cons] at hrequests
      obtain ⟨own, others, rfl, hown, hothers⟩ := List.map_eq_append_iff.mp hrequests
      rw [List.foldlM_cons]
      cases howner : host.directory.owner? messageType with
      | none =>
          rw [howner] at hown
          obtain rfl := List.map_eq_nil_iff.mp hown
          obtain ⟨after, hlater, htalked⟩ := ih hasking horder hothers hanswers
          refine ⟨after, ?_, htalked⟩
          unfold bringUp
          rw [howner]
          exact hlater
      | some owner =>
          rw [howner] at hown
          obtain ⟨middle, hfirst, htalked⟩ := bringUp_talked howner hasking horder hown hanswers
          rw [← htalked.directory] at hasking hothers
          obtain ⟨after, hlater, hmore⟩ :=
            ih hasking htalked.inOrder hothers htalked.link.answers
          refine ⟨after, ?_, ?_⟩
          · rw [hfirst]
            exact hlater
          · rw [List.map_append, hown]
            exact htalked.trans hmore

/-- All that goes out in a start-up: the requests of the host, and those of the registered
    peripherals by message type. -/
def startRequests (requests : δ → List Payload) (host : Host ScriptedBoard κ π δ) :
    List Payload :=
  openingRequests host.config ++
    host.directory.registrations.flatMap fun registration => requests registration.2

/-- **What start-up puts on the wire**, if the controller is idle at first and then answers: each
    request once, with its length before it, and nothing else. The registrations are in ascending
    order of the message types. The masks of the requests that switch event sources on are single
    bits, each a higher one than that before it, and together they are the configured mask. -/
theorem start_on_wire {idle : ScriptStep} {exchanges : List Exchange}
    (hprompt : host.channel.link.Prompt) (htries : 0 < host.config.maxAttempts.toNat)
    (hasking : Asking requests inOrder host.directory) (horder : inOrder host.devices)
    (hidle : idle.status.isReady = false)
    (hrequests : exchanges.map Exchange.request = host.startRequests requests)
    (hscript : host.channel.link.script =
      idle :: (exchanges.flatMap (Exchange.script host.config.address) ++ rest))
    (hpolls : host.channel.link.script.length ≤ polls) :
    (∃ after, host.start polls = some after ∧ after.channel.link.script = rest ∧
      after.channel.link.board.sentBytes = host.channel.link.board.sentBytes ++
        (host.startRequests requests).flatMap Payload.onWire) ∧
    (host.directory.registrations.map Prod.fst).Pairwise (· < ·) ∧
    ((setBits host.config.eventReporting).map (maskOf ∘ sourceRequest)).Pairwise (· < ·) ∧
    (∀ mask ∈ (setBits host.config.eventReporting).map (maskOf ∘ sourceRequest),
      ∃ bit < 32, mask = 2 ^ bit) ∧
    ((setBits host.config.eventReporting).map (maskOf ∘ sourceRequest)).foldl (· ||| ·) 0 =
      host.config.eventReporting.toNat := by
  refine ⟨?_, host.directory.registrations_ascend, masks_of_sources host.config.eventReporting⟩
  obtain ⟨opening, others, rfl, hopening, hothers⟩ := List.map_eq_append_iff.mp hrequests
  obtain ⟨link, htransact, hidles⟩ := Link.talked_of_idle hprompt htries hidle hscript hpolls
  obtain ⟨flushed, hflush, hidled⟩ := flush_talked hasking horder htransact hidles
  have hasks := SystemRequest.opening_asks host.config
  rw [← hopening] at hasks
  obtain ⟨talked, hhold, hopened⟩ := hold_talked hasks hidled.inOrder hidled.link.answers
  rw [← hidled.directory] at hasking hothers
  rw [← hopened.directory] at hasking hothers
  have hdispatched := dispatchPending_talked hasking hopened.inOrder hopened.link.answers
  rw [← hdispatched.directory] at hasking hothers
  rw [← requestsOf_messageTypes] at hothers
  obtain ⟨after, hbringUps, hraised⟩ :=
    bringUps_talked hasking hdispatched.inOrder hothers hdispatched.link.answers
  have hconfig : flushed.config = host.config := hidled.link.config
  have hall := ((hidled.trans hopened).trans (hdispatched.trans hraised)).link
  refine ⟨after.tell .initialized, ?_, hall.answers.script, ?_⟩
  · rw [start_eq, hflush, Option.bind_some, hconfig, hhold, Option.bind_some, hbringUps,
      Option.map_some]
  · rw [← hrequests, List.map_append]
    exact hall.sent

end Host

/-! ### Two recorders -/

/-- A recorder asks for what it was told. -/
theorem Panel.recordRequests_asks (id : Nat) (payloads : List Payload) (panel : Panel) :
    (panel.recordRequests id (payloads.map Payload.bytes)).Asks (fun _ => True) payloads := by
  unfold recordRequests
  generalize panel.record (.broughtUp id) = recorded
  induction payloads generalizing recorded with
  | nil => exact .done trivial
  | cons payload later ih =>
      rw [List.map_cons, List.foldlM_cons]
      exact .request (.takeResponse fun response => ih _)

/-- The requests of a recorder that fit on the wire. -/
def PanelDevice.payloads : PanelDevice → List Payload
  | .recorder _ requests => requests.filterMap Payload.ofBytes?
  | .keyboard _ => []

/-- All requests of a start-up, each of them answered in the same way. -/
def recorderExchanges : List Exchange :=
  (openingRequests { eventReporting := 0x80010002 } ++
    [(3, PanelDevice.recorder 1 [[3, 5]]), (10, .recorder 0 [[10, 1], [10, 2, 3]])].flatMap
      fun registration : UInt8 × PanelDevice => registration.2.payloads).map
    fun request => ⟨request, noopResponse, by decide⟩

/-- Two recorders, of which the one with the higher message type is registered first. -/
def recorderHost : Host ScriptedBoard Silent Panel PanelDevice :=
  let steps := MasterScript.idle ::
    (recorderExchanges.flatMap (Exchange.script MasterScript.usualAddress) ++ [])
  let host := ⟨.scripted { eventReporting := 0x80010002 } steps, .empty, .empty⟩
  let first := (Host.register 10 (.recorder 0 [[10, 1], [10, 2, 3]]) host).2
  (first.register 3 (.recorder 1 [[3, 5]])).2

theorem start_on_wire_recorders :
    ∃ after, recorderHost.start 120 = some after ∧ after.channel.link.script = [] ∧
      after.channel.link.board.sentBytes =
        [2, 7, 2] ++ [3, 4, 0, 1] ++ [2, 7, 0x15] ++
          [7, 1, 1, 1, 0, 0, 2, 0] ++ [7, 1, 1, 1, 1, 0, 0, 0] ++ [7, 1, 1, 1, 0, 0x80, 0, 0] ++
          [2, 3, 5] ++ [2, 10, 1] ++ [3, 10, 2, 3] := by
  have hregistered : recorderHost.directory.registrations =
      [(3, .recorder 1 [[3, 5]]), (10, .recorder 0 [[10, 1], [10, 2, 3]])] := rfl
  have hasking :
      Asking PanelDevice.payloads (fun _ : Panel => True) recorderHost.directory := by
    constructor
    · intro messageType owner howner devices _
      rw [← Directory.mem_registrations, hregistered] at howner
      rcases List.mem_cons.mp howner with hfirst | hlater
      · cases hfirst
        exact Panel.recordRequests_asks 1 [⟨[3, 5], by decide, by decide⟩] devices
      · cases List.mem_singleton.mp hlater
        exact Panel.recordRequests_asks 0
          [⟨[10, 1], by decide, by decide⟩, ⟨[10, 2, 3], by decide, by decide⟩] devices
    · intro _ _ _ _ _ _
      trivial
  have hrequests : recorderExchanges.map Exchange.request =
      recorderHost.startRequests PanelDevice.payloads := by
    unfold recorderExchanges Host.startRequests
    rw [List.map_map, hregistered]
    exact List.map_id _
  have hpolls : recorderHost.channel.link.script.length ≤ 120 := by decide
  obtain ⟨⟨after, hdone, hrest, hsent⟩, -⟩ :=
    Host.start_on_wire ⟨rfl, by decide⟩ (by decide) hasking trivial rfl hrequests rfl hpolls
  refine ⟨after, hdone, hrest, ?_⟩
  rw [hsent, ← hrequests]
  decide

end EcLink
