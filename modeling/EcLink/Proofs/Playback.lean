import EcLink.MasterScript
import EcLink.Proofs.Moves

/-!
# How a transaction follows a script

A script is what the polls find, one step after the other. `Plays` says which actions a transaction
takes on the way through a script and how it ends with the last step. Steps that are not ready
change nothing but the data register, so a script may be padded with them before each of its steps,
and the two kinds of scripts that a master makes are played the same with and without.
-/

namespace EcLink

/-! ### Playing a script -/

/-- Where a link is in a script: its transaction, the byte that it heard last, and the byte that
    the data register holds. -/
structure Stance where
  transaction : Transaction
  byte : UInt8
  register : UInt8

namespace Stance

def find (step : ScriptStep) (stance : Stance) : Stance :=
  { stance with register := step.data.getD stance.register }

def heard (status : Status) (stance : Stance) : UInt8 :=
  if status.isMasterWrite then stance.register else stance.byte

def reaction (address : UInt8) (step : ScriptStep) (stance : Stance) : Reaction :=
  stance.transaction.answer address step.status ((stance.find step).heard step.status)

def next (address : UInt8) (step : ScriptStep) (stance : Stance) : Stance where
  transaction := (stance.reaction address step).transaction
  byte := (stance.find step).heard step.status
  register := (stance.find step).register

theorem reaction_of_write (address : UInt8) {status : Status}
    (hwrites : status.isMasterWrite = true) (byte : UInt8) (stance : Stance) :
    stance.reaction address ⟨status, some byte⟩ =
      stance.transaction.answer address status byte := by
  simp [reaction, heard, find, hwrites]

theorem next_of_write (address : UInt8) {status : Status} (hwrites : status.isMasterWrite = true)
    (byte : UInt8) (stance : Stance) :
    stance.next address ⟨status, some byte⟩ =
      ⟨(stance.transaction.answer address status byte).transaction, byte, byte⟩ := by
  rw [next, reaction_of_write address hwrites]
  simp [heard, find, hwrites]

theorem reaction_of_read (address : UInt8) {status : Status} (hreads : status.isMasterWrite = false)
    (stance : Stance) :
    stance.reaction address ⟨status, none⟩ =
      stance.transaction.answer address status stance.byte := by
  simp [reaction, heard, find, hreads]

theorem next_of_read (address : UInt8) {status : Status} (hreads : status.isMasterWrite = false)
    (stance : Stance) :
    stance.next address ⟨status, none⟩ =
      ⟨(stance.transaction.answer address status stance.byte).transaction, stance.byte,
        stance.register⟩ := by
  rw [next, reaction_of_read address hreads]
  simp [heard, find, hreads]

end Stance

/-- A transaction goes through a script with these actions, and is over with its last step. -/
inductive Plays (address : UInt8) :
    Stance → List ScriptStep → List Action → Outcome → Transaction → Prop
  | idle {stance : Stance} {step : ScriptStep} {steps : List ScriptStep} {actions : List Action}
      {outcome : Outcome} {final : Transaction} (hidle : step.status.isReady = false)
      (hlater : Plays address (stance.find step) steps actions outcome final) :
      Plays address stance (step :: steps) actions outcome final
  | goesOn {stance : Stance} {step : ScriptStep} {steps : List ScriptStep} {actions : List Action}
      {outcome : Outcome} {final : Transaction} (hready : step.status.isReady = true)
      (hverdict : (stance.reaction address step).verdict step.status = none)
      (hlater : Plays address (stance.next address step) steps actions outcome final) :
      Plays address stance (step :: steps) ((stance.reaction address step).actions ++ actions)
        outcome final
  | ends {stance : Stance} {step : ScriptStep} {outcome : Outcome}
      (hready : step.status.isReady = true)
      (hverdict : (stance.reaction address step).verdict step.status = some outcome) :
      Plays address stance [step] (stance.reaction address step).actions outcome
        (stance.reaction address step).transaction

/-! ### Padding -/

/-- A script with any number of steps that are not ready before each of its own. -/
inductive Padded : List ScriptStep → List ScriptStep → Prop
  | nil : Padded [] []
  | cons (gap : List ScriptStep) {script padded : List ScriptStep} {step : ScriptStep}
      (hgap : ∀ idle ∈ gap, idle.status.isReady = false) (hlater : Padded script padded) :
      Padded (step :: script) (gap ++ step :: padded)

theorem Padded.refl (script : List ScriptStep) : Padded script script := by
  induction script with
  | nil => exact .nil
  | cons step script ih => exact .cons [] (by simp) ih

theorem Plays.after_gap (address : UInt8) {gap : List ScriptStep}
    (hgap : ∀ idle ∈ gap, idle.status.isReady = false) (stance : Stance) :
    ∃ register, ∀ {steps : List ScriptStep} {actions : List Action} {outcome : Outcome}
      {final : Transaction}, Plays address { stance with register } steps actions outcome final →
        Plays address stance (gap ++ steps) actions outcome final := by
  induction gap generalizing stance with
  | nil => exact ⟨stance.register, fun hplays => hplays⟩
  | cons step gap ih =>
      have hrest : ∀ idle ∈ gap, idle.status.isReady = false := by
        intro idle hidle
        exact hgap idle (List.mem_cons_of_mem _ hidle)
      obtain ⟨register, hlater⟩ := ih hrest (stance.find step)
      refine ⟨register, ?_⟩
      intro steps actions outcome final hplays
      exact .idle (hgap step List.mem_cons_self) (hlater hplays)

theorem Padded.goesOn {step : ScriptStep} {script steps : List ScriptStep}
    (hpadded : Padded (step :: script) steps) (address : UInt8) (stance : Stance)
    (hready : step.status.isReady = true)
    (hverdict : ∀ register,
      (({ stance with register } : Stance).reaction address step).verdict step.status = none) :
    ∃ register padded, Padded script padded ∧
      ∀ {actions : List Action} {outcome : Outcome} {final : Transaction},
        Plays address (({ stance with register } : Stance).next address step) padded actions
          outcome final →
        Plays address stance steps
          ((({ stance with register } : Stance).reaction address step).actions ++ actions)
          outcome final := by
  cases hpadded with
  | cons gap hgap hlater =>
      obtain ⟨register, hskip⟩ := Plays.after_gap address hgap stance
      refine ⟨register, _, hlater, ?_⟩
      intro actions outcome final hplays
      exact hskip (.goesOn hready (hverdict register) hplays)

theorem Padded.ends {step : ScriptStep} {steps : List ScriptStep} {outcome : Outcome}
    (hpadded : Padded [step] steps) (address : UInt8) (stance : Stance)
    (hready : step.status.isReady = true)
    (hverdict : ∀ register,
      (({ stance with register } : Stance).reaction address step).verdict step.status =
        some outcome) :
    ∃ register, Plays address stance steps
      (({ stance with register } : Stance).reaction address step).actions outcome
      (({ stance with register } : Stance).reaction address step).transaction := by
  cases hpadded with
  | cons gap hgap hlater =>
      cases hlater
      obtain ⟨register, hskip⟩ := Plays.after_gap address hgap stance
      exact ⟨register, hskip (.ends hready (hverdict register))⟩

/-! ### Steps with a byte and steps without -/

section Steps

variable {byte : UInt8} {status : Status} {script steps : List ScriptStep}

theorem Padded.writesOn (hpadded : Padded (⟨status, some byte⟩ :: script) steps)
    (address : UInt8) (stance : Stance) (hready : status.isReady = true)
    (hwrites : status.isMasterWrite = true)
    (hverdict : (stance.transaction.answer address status byte).verdict status = none) :
    ∃ padded, Padded script padded ∧
      ∀ {actions : List Action} {outcome : Outcome} {final : Transaction},
        Plays address ⟨(stance.transaction.answer address status byte).transaction, byte, byte⟩
          padded actions outcome final →
        Plays address stance steps
          ((stance.transaction.answer address status byte).actions ++ actions) outcome final := by
  have hgoesOn : ∀ register, (({ stance with register } : Stance).reaction address
      ⟨status, some byte⟩).verdict status = none := by
    intro register
    rw [Stance.reaction_of_write address hwrites]
    exact hverdict
  obtain ⟨register, padded, hlater, hplays⟩ := hpadded.goesOn address stance hready hgoesOn
  rw [Stance.reaction_of_write address hwrites, Stance.next_of_write address hwrites] at hplays
  exact ⟨padded, hlater, hplays⟩

theorem Padded.writesLast (hpadded : Padded [⟨status, some byte⟩] steps)
    (address : UInt8) (stance : Stance) (hready : status.isReady = true)
    (hwrites : status.isMasterWrite = true) {outcome : Outcome}
    (hverdict : (stance.transaction.answer address status byte).verdict status = some outcome) :
    Plays address stance steps (stance.transaction.answer address status byte).actions outcome
      (stance.transaction.answer address status byte).transaction := by
  have hends : ∀ register, (({ stance with register } : Stance).reaction address
      ⟨status, some byte⟩).verdict status = some outcome := by
    intro register
    rw [Stance.reaction_of_write address hwrites]
    exact hverdict
  obtain ⟨register, hplays⟩ := hpadded.ends address stance hready hends
  rw [Stance.reaction_of_write address hwrites] at hplays
  exact hplays

theorem Padded.readsOn (hpadded : Padded (⟨status, none⟩ :: script) steps)
    (address : UInt8) (stance : Stance) (hready : status.isReady = true)
    (hreads : status.isMasterWrite = false)
    (hverdict : (stance.transaction.answer address status stance.byte).verdict status = none) :
    ∃ register padded, Padded script padded ∧
      ∀ {actions : List Action} {outcome : Outcome} {final : Transaction},
        Plays address ⟨(stance.transaction.answer address status stance.byte).transaction,
          stance.byte, register⟩ padded actions outcome final →
        Plays address stance steps
          ((stance.transaction.answer address status stance.byte).actions ++ actions)
          outcome final := by
  have hgoesOn : ∀ register, (({ stance with register } : Stance).reaction address
      ⟨status, none⟩).verdict status = none := by
    intro register
    rw [Stance.reaction_of_read address hreads]
    exact hverdict
  obtain ⟨register, padded, hlater, hplays⟩ := hpadded.goesOn address stance hready hgoesOn
  rw [Stance.reaction_of_read address hreads, Stance.next_of_read address hreads] at hplays
  exact ⟨register, padded, hlater, hplays⟩

/-- The master stops without a byte; what the data register holds then is of no use. -/
theorem Padded.stopsAfter (hpadded : Padded [⟨status, none⟩] steps)
    (address : UInt8) (stance : Stance) (hready : status.isReady = true) {outcome : Outcome}
    (hverdict : ∀ byte, (stance.transaction.answer address status byte).verdict status =
      some outcome) :
    ∃ byte, Plays address stance steps (stance.transaction.answer address status byte).actions
      outcome (stance.transaction.answer address status byte).transaction := by
  obtain ⟨register, hplays⟩ := hpadded.ends address stance hready fun _ => hverdict _
  exact ⟨_, hplays⟩

end Steps

end EcLink
