import EcLink.Link
import Mathlib.Logic.Relation

/-!
# What a transaction can do to a link

However long a transaction takes, it consists of a few kinds of elementary moves: the registers
are read, the clock is read or waited on, the transaction in flight is replaced, or one action is
taken. `Link.transact_moves` says so once, for every board and every outcome. A relation between
links that each move keeps is therefore kept by whole transactions.
-/

namespace EcLink

/-! ### The answer to a ready poll -/

/-- How a transaction ends with a reaction, if it does: a stop ends it even where the reaction
    does not. -/
def Reaction.verdict (reaction : Reaction) (status : Status) : Option Outcome :=
  match reaction.outcome with
  | some outcome => some outcome
  | none => if status.isStop then some .cutShort else none

/-- The reaction to a ready poll; the address phase of a new transaction starts over first. -/
def Transaction.answer (address : UInt8) (status : Status) (byte : UInt8)
    (transaction : Transaction) : Reaction :=
  (if status.isStart then transaction.restart else transaction).react address status byte

namespace Link

variable {σ κ : Type} [Board σ] [Console κ]

def answered (status : Status) (byte : UInt8) (link : Link σ κ) : Link σ κ :=
  link.follow (link.transaction.answer link.config.address status byte)

theorem respond_eq (start : Instant) (status : Status) (byte : UInt8) (link : Link σ κ) :
    link.respond start status byte =
      let heard := link.freshByte status byte
      let after := heard.2.answered status heard.1
      match (heard.2.transaction.answer heard.2.config.address status heard.1).verdict status with
      | some outcome => (.finished outcome, after)
      | none =>
          (if (after.isLate start).1 then .finished (.failed .timeout) else .again heard.1,
            (after.isLate start).2) := by
  rcases hheard : link.freshByte status byte with ⟨heard, after⟩
  simp only [respond, hheard, answered, Transaction.answer, Reaction.verdict]
  generalize (if status.isStart then after.transaction.restart else after.transaction).react
    after.config.address status heard = reaction
  rcases reaction with ⟨transaction, actions, outcome⟩
  cases outcome with
  | some outcome => rfl
  | none =>
      cases status.isStop with
      | true => rfl
      | false =>
          simp only [Bool.false_eq_true, if_false]
          exact (apply_ite (fun turn => (turn, _)) _ _ _).symm

/-! ### Moves -/

/-- One elementary thing that may happen to a link while it is polled. -/
inductive Move : Link σ κ → Link σ κ → Prop
  | poll (link : Link σ κ) : Move link link.poll.2
  | sample (link : Link σ κ) : Move link { link with board := (Registers.sample link.board).2 }
  | look (link : Link σ κ) : Move link { link with board := (Board.now link.board).2 }
  | pause (nanos : Nat) (link : Link σ κ) :
      Move link { link with board := Board.pause nanos link.board }
  | adopt (transaction : Transaction) (link : Link σ κ) : Move link { link with transaction }
  | act (action : Action) (link : Link σ κ) : Move link (link.act action)

abbrev Moves : Link σ κ → Link σ κ → Prop := Relation.ReflTransGen Move

theorem settle_moves (link : Link σ κ) : Moves link link.settle.2 :=
  (Relation.ReflTransGen.single (.look link)).tail (.pause _ _)

theorem isLate_moves (start : Instant) (link : Link σ κ) : Moves link (link.isLate start).2 :=
  .single (.look link)

theorem freshByte_moves (status : Status) (byte : UInt8) (link : Link σ κ) :
    Moves link (link.freshByte status byte).2 := by
  unfold freshByte
  split
  · exact .single (.sample link)
  · exact .refl

theorem waitOn_moves (start : Instant) (mode : Mode) (byte : UInt8) (link : Link σ κ) :
    Moves link (link.waitOn start mode byte).2 := by
  cases mode with
  | nonBlocking => exact .refl
  | blocking =>
      simp only [waitOn]
      split
      · exact isLate_moves start link
      · exact (isLate_moves start link).tail (.pause _ _)

theorem foldl_act_moves (actions : List Action) (link : Link σ κ) :
    Moves link (actions.foldl act link) := by
  induction actions generalizing link with
  | nil => exact .refl
  | cons action actions ih => exact (ih (link.act action)).head (.act action link)

theorem answered_moves (status : Status) (byte : UInt8) (link : Link σ κ) :
    Moves link (link.answered status byte) :=
  (foldl_act_moves _ _).head (.adopt _ link)

theorem respond_moves (start : Instant) (status : Status) (byte : UInt8) (link : Link σ κ) :
    Moves link (link.respond start status byte).2 := by
  have hanswered : Moves link
      ((link.freshByte status byte).2.answered status (link.freshByte status byte).1) :=
    (freshByte_moves status byte link).trans (answered_moves _ _ _)
  rw [respond_eq]
  dsimp only
  split
  · exact hanswered
  · exact hanswered.trans (isLate_moves start _)

theorem turn_moves (start : Instant) (mode : Mode) (byte : UInt8) (link : Link σ κ) :
    Moves link (link.turn start mode byte).2 := by
  have hpolled : Moves link link.poll.2 := .single (.poll link)
  simp only [turn]
  split
  · exact hpolled.trans (respond_moves start _ byte _)
  · exact hpolled.trans (waitOn_moves start mode byte _)

theorem turns_moves {start : Instant} {polls : Nat} {mode : Mode} {byte : UInt8}
    {link after : Link σ κ} {outcome : Outcome}
    (hdone : link.turns start polls mode byte = some (outcome, after)) : Moves link after := by
  induction polls generalizing mode byte link with
  | zero => cases hdone
  | succ polls ih =>
      have hturn := turn_moves start mode byte link
      rw [turns] at hdone
      split at hdone
      case h_1 heq =>
        cases hdone
        simpa only [heq] using hturn
      case h_2 heq =>
        rw [heq] at hturn
        exact hturn.trans (ih hdone)

/-- **A transaction is a sequence of moves**, whatever the board does and however it ends. -/
theorem transact_moves {polls : Nat} {mode : Mode} {link after : Link σ κ} {outcome : Outcome}
    (hdone : link.transact polls mode = some (outcome, after)) : Moves link after :=
  (settle_moves link).trans (turns_moves hdone)

theorem Moves.lift {R : Link σ κ → Link σ κ → Prop} {link after : Link σ κ}
    (hmoves : Moves link after) (hrefl : ∀ link, R link link)
    (htrans : ∀ {first second third}, R first second → R second third → R first third)
    (hmove : ∀ {before after}, Move before after → R before after) : R link after := by
  induction hmoves with
  | refl => exact hrefl link
  | tail _ hstep ih => exact htrans ih (hmove hstep)

end Link

end EcLink
