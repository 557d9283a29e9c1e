import EcLink.Dialogue

/-!
# A stand-in for the controller

A stand-in takes requests without any link behind it. It writes every request down, answers all
but those it was told to let fail, and holds one response to be taken. Dialogues can be tried out
on it.
-/

namespace EcLink

/-- A requester without a link. -/
structure StandIn (κ : Type) where
  history : List (List UInt8)
  /-- The numbers of the requests that fail, counted from zero. -/
  failing : List Nat
  response : Option Frame
  console : κ

namespace StandIn

variable {κ : Type}

def fresh (failing : List Nat) (console : κ) : StandIn κ := ⟨[], failing, none, console⟩

def requests (standIn : StandIn κ) : List (List UInt8) := standIn.history.reverse

def failure : RequestError := .noReply ⟨.ofNat 1, .ofNat 2, .ofNat 3⟩

def request (bytes : List UInt8) (standIn : StandIn κ) : Except RequestError Unit × StandIn κ :=
  let result :=
    if standIn.failing.contains standIn.history.length then .error failure else .ok ()
  (result, { standIn with history := bytes :: standIn.history })

def takeResponse (standIn : StandIn κ) : Option Frame × StandIn κ :=
  (standIn.response, { standIn with response := none })

/-- A stand-in as something that requests can be made of; none of them goes unfinished. -/
def requester [Console κ] : Requester (StandIn κ) where
  request bytes standIn := some (standIn.request bytes)
  takeResponse := takeResponse
  tell notice standIn := { standIn with console := Console.tell notice standIn.console }

def converse {α : Type} [Console κ] (dialogue : Dialogue α) (standIn : StandIn κ) :
    Option (α × StandIn κ) :=
  dialogue.run requester standIn

end StandIn

end EcLink
