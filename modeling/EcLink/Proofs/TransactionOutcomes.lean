import EcLink.Proofs.ScriptedLink

/-!
# One call, one transaction

The controller makes one transaction after the other, of either kind, with idle polls wherever it
likes. Each call of `Link.transact` then takes exactly the steps of the next transaction, and
answers what that transaction calls for: nothing of what an earlier one left behind, be it
unfinished, too long or refused, has any influence but for what is queued.
-/

namespace EcLink

inductive MasterTransaction
  | writes (bytes : List UInt8)
  | reads (count : Nat)
  deriving DecidableEq, Repr

namespace MasterTransaction

def script (address : UInt8) : MasterTransaction → List ScriptStep
  | .writes bytes => MasterScript.writes address bytes
  | .reads count => MasterScript.reads address count

/-- A read is of no more than there is to hand out. -/
def Fits (queued : Option Payload) : MasterTransaction → Prop
  | .writes _ => True
  | .reads count => count ≤ (offered queued).bytes.length

instance (queued : Option Payload) (transaction : MasterTransaction) :
    Decidable (transaction.Fits queued) :=
  match transaction with
  | .writes _ => isTrue trivial
  | .reads count => inferInstanceAs (Decidable (count ≤ (offered queued).bytes.length))

def outcome (queued : Option Payload) : MasterTransaction → Outcome
  | .writes bytes => writeOutcome bytes
  | .reads count => readOutcome (offered queued) count

/-- What the controller sees: for a read the size, the request line let go of, and the bytes. -/
def deeds (queued : Option Payload) (releases : Bool) : MasterTransaction → List Signal
  | .writes _ => []
  | .reads count => .sent (.ofNat (offered queued).bytes.length) :: .drove .high releases ::
      ((offered queued).bytes.take count).map .sent

def dropped : MasterTransaction → Nat
  | .writes bytes => overflow bytes
  | .reads _ => 0

def leaves (queued : Option Payload) : MasterTransaction → Option Payload
  | .writes _ => queued
  | .reads count => unread (offered queued) count

theorem deeds_substitution (releases : Bool) (queued : Option Payload) :
    (substitution queued).filterMap (Action.deed? releases) = [] ∧
      (substitution queued).countP Action.isDrop = 0 := by
  unfold substitution
  split <;> exact ⟨rfl, rfl⟩

theorem deeds_complaint (releases : Bool) (payload : Payload) (count : Nat) :
    (complaint payload count).filterMap (Action.deed? releases) = [] ∧
      (complaint payload count).countP Action.isDrop = 0 := by
  unfold complaint
  split <;> exact ⟨rfl, rfl⟩

theorem deeds_send (releases : Bool) (bytes : List UInt8) :
    (bytes.map Action.send).filterMap (Action.deed? releases) = bytes.map .sent ∧
      (bytes.map Action.send).countP Action.isDrop = 0 := by
  constructor
  · rw [List.filterMap_map]
    exact congrFun (List.filterMap_eq_map' (f := Signal.sent)) bytes
  · rw [List.countP_map]
    exact List.countP_eq_zero.mpr (by simp [Action.isDrop])

/-- **Either kind of transaction is played** to its outcome from every stance. -/
theorem plays {transaction : MasterTransaction} {address : UInt8} {steps : List ScriptStep}
    (hpadded : Padded (transaction.script address) steps) (stance : Stance)
    (hfits : transaction.Fits stance.transaction.outbox.payload) (releases : Bool) :
    ∃ actions final, Plays address stance steps actions
        (transaction.outcome stance.transaction.outbox.payload) final ∧
      actions.filterMap (Action.deed? releases) =
        transaction.deeds stance.transaction.outbox.payload releases ∧
      actions.countP Action.isDrop = transaction.dropped ∧
      final.outbox.payload = transaction.leaves stance.transaction.outbox.payload := by
  cases transaction with
  | writes bytes =>
      obtain ⟨final, hplays, hqueued⟩ := Padded.writes_play hpadded stance
      refine ⟨_, final, hplays, ?_, ?_, hqueued⟩
      · apply List.filterMap_eq_nil_iff.mpr
        intro action haction
        obtain rfl := List.eq_of_mem_replicate haction
        rfl
      · exact List.countP_replicate
  | reads count =>
      obtain ⟨final, hplays, hqueued⟩ := Padded.reads_play hpadded stance hfits
      obtain ⟨hsubstitution, hundropped⟩ :=
        deeds_substitution releases stance.transaction.outbox.payload
      obtain ⟨hcomplaint, hundropped'⟩ :=
        deeds_complaint releases (offered stance.transaction.outbox.payload) count
      obtain ⟨hsend, hundropped''⟩ :=
        deeds_send releases ((offered stance.transaction.outbox.payload).bytes.take count)
      refine ⟨_, final, hplays, ?_, ?_, hqueued⟩
      · rw [List.filterMap_append, List.filterMap_append, List.filterMap_append, hsubstitution,
          hsend, hcomplaint, List.append_nil]
        rfl
      · rw [List.countP_append, List.countP_append, List.countP_append, hundropped, hundropped',
          hundropped'']
        rfl

end MasterTransaction

/-! ### One call -/

namespace Link

variable {κ : Type}

def queued (link : Link ScriptedBoard κ) : Option Payload := link.transaction.outbox.payload

theorem settle_stands (link : Link ScriptedBoard κ) :
    link.settle.1 = .ofNanos link.nanos ∧
      Stands ⟨link.transaction, 0, (ScriptedBoard.bus link.board).data⟩ link.script link.settle.2 ∧
      Travels [] link.settleNanos link link.settle.2 := by
  have hsettle : link.settle.2 =
      { link with board := Board.pause link.settleNanos link.board } := rfl
  rw [hsettle]
  exact ⟨rfl, pause_stands link.settleNanos ⟨rfl, rfl, rfl⟩⟩

variable [Console κ]

/-- A call took the steps of one transaction, and did what that transaction calls for. -/
structure Served (polls : Nat) (transaction : MasterTransaction) (steps : List ScriptStep)
    (before after : Link ScriptedBoard κ) : Prop where
  transacted : before.transact polls .blocking = some (transaction.outcome before.queued, after)
  script : before.script = steps ++ after.script
  deeds : after.deeds = before.deeds ++ transaction.deeds before.queued before.releases
  dropped : after.diagnostics.dropped.count =
    min (before.diagnostics.dropped.count + transaction.dropped) counterCeiling
  queued : after.queued = transaction.leaves before.queued
  config : after.config = before.config
  tick : after.tick = before.tick
  releases : after.releases = before.releases

theorem transact_serves {transaction : MasterTransaction} {link : Link ScriptedBoard κ}
    {steps rest : List ScriptStep} {polls : Nat} (hscript : link.script = steps ++ rest)
    (hpadded : Padded (transaction.script link.config.address) steps)
    (hfits : transaction.Fits link.queued)
    (htimely : link.settleNanos + duration link.tick link.pauseNanos steps ≤ link.timeoutNanos)
    (hpolls : steps.length ≤ polls) :
    ∃ after, Served polls transaction steps link after ∧ after.script = rest := by
  obtain ⟨hstart, hstands, hsettled⟩ := settle_stands link
  obtain ⟨actions, final, hplays, hdeeds, hdropped, hqueued⟩ :=
    MasterTransaction.plays hpadded
      ⟨link.transaction, 0, (ScriptedBoard.bus link.board).data⟩ hfits link.releases
  have hnanos := hsettled.nanos
  rw [hscript] at hstands
  have hafter : link.nanos ≤ link.settle.2.nanos := by omega
  have hwithin : link.settle.2.nanos + duration link.settle.2.tick link.settle.2.pauseNanos steps ≤
      link.nanos + link.settle.2.timeoutNanos := by
    rw [hsettled.tick, hsettled.pauseNanos, hsettled.timeoutNanos, hnanos]
    omega
  obtain ⟨after, hturns, hfinal, hrest, htravels⟩ :=
    turns_of_plays hplays (by rw [hsettled.config]) hstands hafter hwithin hpolls
  have hall := hsettled.trans htravels
  refine ⟨after, ⟨?_, ?_, ?_, ?_, ?_, hall.config, hall.tick, hall.releases⟩, hrest⟩
  · rw [← hstart] at hturns
    exact hturns
  · rw [hrest, hscript]
  · rw [hall.deeds, List.nil_append, hdeeds]
    rfl
  · rw [hall.dropped, List.nil_append, hdropped]
  · rw [queued, hfinal, hqueued]
    rfl

/-! ### One call after the other -/

/-- A transaction with the steps that it takes, idle ones included. -/
structure Visit where
  transaction : MasterTransaction
  steps : List ScriptStep

inductive AllServed (polls : Nat) :
    List Visit → Link ScriptedBoard κ → Link ScriptedBoard κ → Prop
  | nil (link : Link ScriptedBoard κ) : AllServed polls [] link link
  | cons {visit : Visit} {later : List Visit} {before middle after : Link ScriptedBoard κ}
      (hserved : Served polls visit.transaction visit.steps before middle)
      (hlater : AllServed polls later middle after) :
      AllServed polls (visit :: later) before after

/-- No read is of more than there is to hand out when its turn comes. -/
def AllFit : Option Payload → List Visit → Prop
  | _, [] => True
  | queued, visit :: later =>
      visit.transaction.Fits queued ∧ AllFit (visit.transaction.leaves queued) later

instance decidableAllFit (queued : Option Payload) : (visits : List Visit) →
    Decidable (AllFit queued visits)
  | [] => isTrue trivial
  | visit :: later =>
      have := decidableAllFit (visit.transaction.leaves queued) later
      inferInstanceAs (Decidable (_ ∧ _))

/-- **Each call serves one transaction**, and it does not matter to it what came before, except for
    what is queued. This holds of a link in any state. -/
theorem transactions_served {polls : Nat} {visits : List Visit} {link : Link ScriptedBoard κ}
    {rest : List ScriptStep} (hscript : link.script = visits.flatMap Visit.steps ++ rest)
    (hpadded : ∀ visit ∈ visits,
      Padded (visit.transaction.script link.config.address) visit.steps)
    (hfits : AllFit link.queued visits)
    (htimely : ∀ visit ∈ visits,
      link.settleNanos + duration link.tick link.pauseNanos visit.steps ≤ link.timeoutNanos)
    (hpolls : ∀ visit ∈ visits, visit.steps.length ≤ polls) :
    ∃ after, AllServed polls visits link after ∧ after.script = rest := by
  induction visits generalizing link with
  | nil => exact ⟨link, .nil link, hscript⟩
  | cons visit later ih =>
      rw [List.flatMap_cons, List.append_assoc] at hscript
      obtain ⟨hfirst, hothers⟩ := hfits
      obtain ⟨middle, hserved, hleft⟩ := transact_serves hscript (hpadded visit List.mem_cons_self)
        hfirst (htimely visit List.mem_cons_self) (hpolls visit List.mem_cons_self)
      rw [← hserved.queued] at hothers
      obtain ⟨after, hlater, hrest⟩ := ih hleft
        (by
          intro next hnext
          rw [hserved.config]
          exact hpadded next (List.mem_cons_of_mem _ hnext))
        hothers
        (by
          intro next hnext
          have htime := htimely next (List.mem_cons_of_mem _ hnext)
          simp only [settleNanos, pauseNanos, timeoutNanos] at htime ⊢
          rw [hserved.config, hserved.tick]
          exact htime)
        (by
          intro next hnext
          exact hpolls next (List.mem_cons_of_mem _ hnext))
      exact ⟨after, .cons hserved hlater, hrest⟩

/-- What the controller sees of one transaction after the other. -/
def allDeeds (releases : Bool) : Option Payload → List Visit → List Signal
  | _, [] => []
  | queued, visit :: later =>
      visit.transaction.deeds queued releases ++
        allDeeds releases (visit.transaction.leaves queued) later

theorem AllServed.deeds {polls : Nat} {visits : List Visit} {before after : Link ScriptedBoard κ}
    (hserved : AllServed polls visits before after) :
    after.deeds = before.deeds ++ allDeeds before.releases before.queued visits := by
  induction hserved with
  | nil link => exact (List.append_nil _).symm
  | cons hserved hlater ih =>
      rw [ih, hserved.deeds, hserved.releases, hserved.queued, List.append_assoc]
      rfl

def interrupted (visits : List Visit) : Link ScriptedBoard Silent :=
  { fresh (.atTime { ScriptedBus.idle .quiet 1000 with steps := visits.flatMap Visit.steps } 77)
      ⟨⟩ {} with
    transaction :=
      ⟨.receiving, ⟨Vector.replicate maxFrameLength 0x11, maxFrameLength, Nat.le_refl _⟩, .empty⟩ }

def fourVisits : List Visit :=
  [⟨.writes [0x85, 0x02], ⟨⟨0x17⟩, some 0x99⟩ ::
      (MasterTransaction.writes [0x85, 0x02]).script MasterScript.usualAddress⟩,
    ⟨.reads 1, (MasterTransaction.reads 1).script MasterScript.usualAddress⟩,
    ⟨.reads 2, (MasterTransaction.reads 2).script MasterScript.usualAddress⟩,
    ⟨.writes (List.replicate 36 0x80),
      (MasterTransaction.writes (List.replicate 36 0x80)).script MasterScript.usualAddress⟩]

/-- The no-op is handed out up to its first byte, and then from the front again. -/
theorem transactions_served_four :
    ∃ after, AllServed 40 fourVisits (interrupted fourVisits) after ∧ after.script = [] ∧
      after.deeds = [.sent 2, .drove .high true, .sent 7,
        .sent 2, .drove .high true, .sent 7, .sent 2] := by
  have haddress : (interrupted fourVisits).config.address = MasterScript.usualAddress := rfl
  have hpadded : ∀ visit ∈ fourVisits,
      Padded (visit.transaction.script (interrupted fourVisits).config.address) visit.steps := by
    rw [haddress]
    intro visit hvisit
    simp only [fourVisits, List.mem_cons, List.not_mem_nil, or_false] at hvisit
    rcases hvisit with rfl | rfl | rfl | rfl
    · exact .cons [⟨⟨0x17⟩, some 0x99⟩] (by decide) (.refl _)
    · exact .refl _
    · exact .refl _
    · exact .refl _
  have hpolls : ∀ visit ∈ fourVisits, visit.steps.length ≤ 40 := by decide
  obtain ⟨after, hserved, hrest⟩ :=
    transactions_served (List.append_nil _).symm hpadded (by decide) (by decide) hpolls
  exact ⟨after, hserved, hrest, hserved.deeds⟩

end Link

end EcLink
