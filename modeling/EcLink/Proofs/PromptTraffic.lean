import EcLink.Proofs.Deliveries
import EcLink.Proofs.RequestAccounting
import EcLink.Proofs.TransactionOutcomes

/-!
# Traffic without delay

Where polls take no time and the settle delay is within the time limit, no call runs out of time
while there is something left of a script. So a channel receives the next transaction of the
script, whole and nothing else, be it patient or not. `Link.Advances` keeps the accounts: which
steps are gone, and which bytes went out meanwhile.
-/

namespace EcLink

/-! ### Scripts without idle polls -/

theorem MasterScript.status_of_mem_writtenBytes {bytes : List UInt8} {step : ScriptStep}
    (hstep : step ∈ writtenBytes bytes) :
    step.status = .written ∨ step.status = .stopped := by
  fun_induction writtenBytes bytes with
  | case1 =>
      rw [List.mem_singleton.mp hstep]
      exact .inr rfl
  | case2 last =>
      rw [List.mem_singleton.mp hstep]
      exact .inr rfl
  | case3 byte rest hmore ih =>
      rcases List.mem_cons.mp hstep with rfl | hlater
      · exact .inl rfl
      · exact ih hlater

theorem MasterTransaction.ready_of_mem_script {transaction : MasterTransaction} {address : UInt8}
    {step : ScriptStep} (hstep : step ∈ transaction.script address) :
    step.status.isReady = true := by
  have hready : ∀ status ∈ [Status.start, .written, .readRequest, .readOut, .stopped],
      status.isReady = true := by decide
  apply hready
  cases transaction with
  | writes bytes =>
      rcases List.mem_cons.mp hstep with rfl | hlater
      · simp
      · rcases MasterScript.status_of_mem_writtenBytes hlater with hstatus | hstatus <;>
          simp [hstatus]
  | reads count =>
      simp only [script, MasterScript.reads, List.mem_append, List.mem_cons, List.mem_replicate,
        List.not_mem_nil, or_false] at hstep
      rcases hstep with ((rfl | rfl | rfl) | ⟨-, rfl⟩) | rfl <;> simp

theorem duration_of_ready {pause : Nat} {steps : List ScriptStep}
    (hready : ∀ step ∈ steps, step.status.isReady = true) : duration 0 pause steps = 0 := by
  induction steps with
  | nil => rfl
  | cons step steps ih =>
      have hnow := hready step List.mem_cons_self
      have hlater : ∀ later ∈ steps, later.status.isReady = true := by
        intro later hmem
        exact hready later (List.mem_cons_of_mem _ hmem)
      rw [duration, hnow, if_pos rfl, ih hlater]

/-! ### Bytes handed out -/

namespace MasterTransaction

/-- The bytes that the controller gets to see in a transaction. -/
def handedOut (queued : Option Payload) : MasterTransaction → List UInt8
  | .writes _ => []
  | .reads count => .ofNat (offered queued).bytes.length :: (offered queued).bytes.take count

theorem sentBytes_deeds (queued : Option Payload) (releases : Bool)
    (transaction : MasterTransaction) :
    (transaction.deeds queued releases).filterMap Signal.sentByte? =
      transaction.handedOut queued := by
  cases transaction with
  | writes bytes => rfl
  | reads count =>
      have hbytes : (((offered queued).bytes.take count).map Signal.sent).filterMap
          Signal.sentByte? = (offered queued).bytes.take count := by
        rw [List.filterMap_map]
        exact List.filterMap_some
      simp only [deeds, handedOut, List.filterMap_cons, Signal.sentByte?, hbytes]

end MasterTransaction

namespace Link

variable {κ : Type}

theorem sentBytes_eq (link : Link ScriptedBoard κ) :
    link.board.sentBytes = link.deeds.filterMap Signal.sentByte? := by
  rw [ScriptedBoard.sentBytes, deeds, List.filterMap_filter]
  congr 1
  funext signal
  cases signal <;> rfl

/-! ### Prompt links -/

/-- Time only passes in delays, and the settle delay is within the time limit. -/
structure Prompt (link : Link ScriptedBoard κ) : Prop where
  tick : link.tick = 0
  settles : link.config.settleMillis ≤ link.config.timeoutMillis

theorem Prompt.settleNanos_le {link : Link ScriptedBoard κ} (hprompt : link.Prompt) :
    link.settleNanos ≤ link.timeoutNanos :=
  Nat.mul_le_mul_right _ (UInt32.le_iff_toNat_le.mp hprompt.settles)

theorem poll_settled {link : Link ScriptedBoard κ} {step : ScriptStep} {rest : List ScriptStep}
    (hscript : link.script = step :: rest) : link.settle.2.poll.1 = step.status := by
  obtain ⟨-, hstands, -⟩ := settle_stands link
  rw [hscript] at hstands
  exact (poll_stands hstands).1

/-- From one link to another these steps of the script are gone, and these bytes are out. -/
structure Advances (steps : List ScriptStep) (bytes : List UInt8)
    (before after : Link ScriptedBoard κ) : Prop where
  script : before.script = steps ++ after.script
  sent : after.board.sentBytes = before.board.sentBytes ++ bytes
  config : after.config = before.config
  tick : after.tick = before.tick

theorem Advances.trans {first second third : Link ScriptedBoard κ}
    {steps more : List ScriptStep} {bytes others : List UInt8}
    (hearlier : Advances steps bytes first second) (hlater : Advances more others second third) :
    Advances (steps ++ more) (bytes ++ others) first third := by
  refine ⟨?_, ?_, hlater.config.trans hearlier.config, hlater.tick.trans hearlier.tick⟩
  · rw [hearlier.script, hlater.script, List.append_assoc]
  · rw [hlater.sent, hearlier.sent, List.append_assoc]

theorem Advances.prompt {before after : Link ScriptedBoard κ} {steps : List ScriptStep}
    {bytes : List UInt8} (hadvances : Advances steps bytes before after)
    (hprompt : before.Prompt) : after.Prompt := by
  refine ⟨hadvances.tick.trans hprompt.tick, ?_⟩
  rw [hadvances.config]
  exact hprompt.settles

theorem Advances.script_eq {before after : Link ScriptedBoard κ} {steps rest : List ScriptStep}
    {bytes : List UInt8} (hadvances : Advances steps bytes before after)
    (hscript : before.script = steps ++ rest) : after.script = rest :=
  List.append_cancel_left (hadvances.script.symm.trans hscript)

variable [Console κ]

theorem Advances.tell {before after : Link ScriptedBoard κ} {steps : List ScriptStep}
    {bytes : List UInt8} (hadvances : Advances steps bytes before after) (notice : Notice) :
    Advances steps bytes before (after.tell notice) :=
  ⟨hadvances.script, hadvances.sent, hadvances.config, hadvances.tick⟩

theorem drive_advances (level : Level) (link : Link ScriptedBoard κ) :
    Advances [] [] link (link.drive level).2 := by
  have hsent : (Board.drive level link.board).2.sentBytes = link.board.sentBytes ++ [] := by
    have htrace : (Board.drive level link.board).2.trace =
        link.board.trace ++ [.drove level (Board.drive level link.board).1] :=
      Traced.trace_note _ _ _
    rw [ScriptedBoard.sentBytes, htrace, List.filterMap_append]
    rfl
  simp only [drive]
  split
  · exact ⟨rfl, hsent, rfl, rfl⟩
  · exact ⟨rfl, hsent, rfl, rfl⟩

/-! ### The next transaction -/

theorem turns_of_ready {start : Instant} {polls : Nat} {byte : UInt8} {link : Link ScriptedBoard κ}
    (hready : link.poll.1.isReady = true) (mode : Mode) :
    link.turns start polls mode byte = link.turns start polls .blocking byte := by
  cases polls with
  | zero => rfl
  | succ polls => simp only [turns, turn_eq, hready, if_true]

/-- A call takes the next transaction of the script, whether it would wait for one or not. -/
theorem Prompt.transact {link : Link ScriptedBoard κ} {rest : List ScriptStep} {polls : Nat}
    (hprompt : link.Prompt) (transaction : MasterTransaction)
    (hscript : link.script = transaction.script link.config.address ++ rest)
    (hfits : transaction.Fits link.queued)
    (hpolls : (transaction.script link.config.address).length ≤ polls) (mode : Mode) :
    ∃ after, link.transact polls mode = some (transaction.outcome link.queued, after) ∧
      after.script = rest ∧ after.queued = transaction.leaves link.queued ∧
      Advances (transaction.script link.config.address) (transaction.handedOut link.queued)
        link after := by
  have htimely : link.settleNanos + duration link.tick link.pauseNanos
      (transaction.script link.config.address) ≤ link.timeoutNanos := by
    rw [hprompt.tick, duration_of_ready fun _ hstep => MasterTransaction.ready_of_mem_script hstep,
      Nat.add_zero]
    exact hprompt.settleNanos_le
  obtain ⟨after, hserved, hrest⟩ := transact_serves hscript (Padded.refl _) hfits htimely hpolls
  have hready : link.settle.2.poll.1.isReady = true := by
    cases hsteps : transaction.script link.config.address with
    | nil => cases transaction <;> cases hsteps
    | cons step steps =>
        rw [hsteps, List.cons_append] at hscript
        rw [poll_settled hscript]
        have hmem : step ∈ transaction.script link.config.address := by
          rw [hsteps]
          exact List.mem_cons_self
        exact MasterTransaction.ready_of_mem_script hmem
  refine ⟨after, ?_, hrest, hserved.queued, hserved.script, ?_, hserved.config, hserved.tick⟩
  · change link.settle.2.turns link.settle.1 polls mode 0 = _
    rw [turns_of_ready hready mode]
    exact hserved.transacted
  · rw [sentBytes_eq, sentBytes_eq, hserved.deeds, List.filterMap_append,
      MasterTransaction.sentBytes_deeds]

/-- A call that does not wait takes no more than the step that it finds, if that is an idle one. -/
theorem transact_idle {link : Link ScriptedBoard κ} {step : ScriptStep} {rest : List ScriptStep}
    {polls : Nat} (hscript : link.script = step :: rest) (hidle : step.status.isReady = false)
    (hpolls : 0 < polls) :
    ∃ after, link.transact polls .nonBlocking = some (.idle, after) ∧
      Advances [step] [] link after := by
  obtain ⟨-, hstands, hsettled⟩ := settle_stands link
  rw [hscript] at hstands
  obtain ⟨hstatus, hfound, hpolled⟩ := poll_stands hstands
  have hall := hsettled.trans hpolled
  obtain ⟨fewer, rfl⟩ : ∃ fewer, polls = fewer + 1 := Nat.exists_eq_add_one.mpr hpolls
  refine ⟨link.settle.2.poll.2, ?_, ⟨?_, ?_, hall.config, hall.tick⟩⟩
  · change link.settle.2.turns link.settle.1 (fewer + 1) .nonBlocking 0 = _
    rw [turns, turn_eq, hstatus, hidle, if_neg Bool.false_ne_true, waitOn]
  · rw [hfound.script]
    exact hscript
  · rw [sentBytes_eq, sentBytes_eq, hall.deeds, List.append_nil, List.filterMap_append]
    rfl

end Link

/-! ### The next transaction of a channel -/

namespace Channel

variable {κ : Type} [Console κ]

theorem offer_advances (payload : Payload) (channel : Channel ScriptedBoard κ) :
    Link.Advances [] [] channel.link (channel.offer payload).link ∧
      (channel.offer payload).link.queued = some payload := by
  have hloaded : Link.Advances [] [] channel.link (channel.link.load payload) :=
    ⟨rfl, (List.append_nil _).symm, rfl, rfl⟩
  refine ⟨hloaded.trans (Link.drive_advances .low _), ?_⟩
  simp only [offer, Link.assertRequest, Link.drive, Link.queued]
  split <;> rfl

/-- A channel receives the next transaction of the script. -/
theorem receive_next (transaction : MasterTransaction) {channel : Channel ScriptedBoard κ}
    {rest : List ScriptStep} {polls : Nat} (hprompt : channel.link.Prompt)
    (hscript : channel.link.script = transaction.script channel.link.config.address ++ rest)
    (hfits : transaction.Fits channel.link.queued)
    (hpolls : (transaction.script channel.link.config.address).length ≤ polls) (mode : Mode) :
    ∃ after,
      channel.receive polls mode = some (transaction.outcome channel.link.queued, after) ∧
      after.link.script = rest ∧
      after.link.queued = transaction.leaves channel.link.queued ∧
      Link.Advances (transaction.script channel.link.config.address)
        (transaction.handedOut channel.link.queued) channel.link after.link := by
  obtain ⟨link, htransact, hrest, hqueued, hadvances⟩ :=
    hprompt.transact transaction hscript hfits hpolls mode
  refine ⟨{ channel with link }.keep (transaction.outcome channel.link.queued), ?_, ?_⟩
  · rw [receive_eq, htransact]
    rfl
  · rcases keep_link (transaction.outcome channel.link.queued) { channel with link } with
      hkept | hkept
    · rw [hkept]
      exact ⟨hrest, hqueued, hadvances⟩
    · rw [hkept]
      exact ⟨hrest, hqueued, hadvances.tell _⟩

end Channel

end EcLink
