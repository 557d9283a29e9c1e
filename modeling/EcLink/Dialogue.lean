import EcLink.Notice

/-!
# Dialogues

A peripheral that is being brought up sends requests, looks at replies, and has things to say.
`Dialogue α` is such a course of action as a value: a tree whose nodes are the things it does,
with one branch for each possible answer, and a result at every leaf. It does not know who
carries it out. **The same dialogue runs against the link, against the whole host and against a
stand-in**, each of which is given as a `Requester`.
-/

namespace EcLink

/-- Something that sends requests and comes to a result. -/
inductive Dialogue (α : Type) : Type
  | done (result : α)
  | request (bytes : List UInt8) (next : Except RequestError Unit → Dialogue α)
  | takeResponse (next : Option Frame → Dialogue α)
  | tell (notice : Notice) (next : Dialogue α)

namespace Dialogue

variable {α β : Type}

def bind : Dialogue α → (α → Dialogue β) → Dialogue β
  | .done result, after => after result
  | .request bytes next, after => .request bytes fun reply => (next reply).bind after
  | .takeResponse next, after => .takeResponse fun response => (next response).bind after
  | .tell notice next, after => .tell notice (next.bind after)

instance : Monad Dialogue where
  pure := .done
  bind := bind

def ask (bytes : List UInt8) : Dialogue (Except RequestError Unit) := .request bytes .done

def collect : Dialogue (Option Frame) := .takeResponse .done

def say (notice : Notice) : Dialogue Unit := .tell notice (.done ())

end Dialogue

/-- Something of type `ρ` that requests can be made of. A request may go unfinished, and then the
    dialogue does too. -/
structure Requester (ρ : Type) where
  request : List UInt8 → ρ → Option (Except RequestError Unit × ρ)
  takeResponse : ρ → Option Frame × ρ
  tell : Notice → ρ → ρ

def Dialogue.run {ρ α : Type} (requester : Requester ρ) : Dialogue α → ρ → Option (α × ρ)
  | .done result, world => some (result, world)
  | .request bytes next, world => do
      let (reply, world) ← requester.request bytes world
      (next reply).run requester world
  | .takeResponse next, world =>
      let (response, world) := requester.takeResponse world
      (next response).run requester world
  | .tell notice next, world => next.run requester (requester.tell notice world)

/-- Carrying out two dialogues in a row is carrying out their composition. -/
theorem Dialogue.run_bind {ρ α β : Type} (requester : Requester ρ) (first : Dialogue α)
    (after : α → Dialogue β) (world : ρ) :
    (first.bind after).run requester world =
      (first.run requester world).bind fun (result, world) =>
        (after result).run requester world := by
  induction first generalizing world with
  | done result => rfl
  | request bytes next ih =>
      simp only [Dialogue.bind, Dialogue.run]
      cases requester.request bytes world with
      | none => rfl
      | some answer => exact ih answer.1 answer.2
  | takeResponse next ih => exact ih _ _
  | tell notice next ih => exact ih _

/-- Where every request is answered, every dialogue comes to its end. -/
theorem Dialogue.run_isSome {ρ α : Type} {requester : Requester ρ}
    (hanswered : ∀ bytes world, (requester.request bytes world).isSome) (dialogue : Dialogue α)
    (world : ρ) : (dialogue.run requester world).isSome := by
  induction dialogue generalizing world with
  | done result => rfl
  | request bytes next ih =>
      obtain ⟨⟨reply, after⟩, hfound⟩ := Option.isSome_iff_exists.mp (hanswered bytes world)
      rw [run, hfound]
      exact ih reply after
  | takeResponse next ih => exact ih _ _
  | tell notice next ih => exact ih _

end EcLink
