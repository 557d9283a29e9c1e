import EcLink.Board

/-!
# Watching a board

`Traced σ` is a board that behaves as the board inside it does and writes down what passes
between the link and the hardware. It is how statements about bytes sent, polls made and levels
driven are put: they speak of the trace, and the board inside stays arbitrary.
-/

namespace EcLink

/-- One exchange between the link and its hardware. -/
inductive Signal
  | polled (status : Status)
  | sampled (byte : UInt8)
  | sent (byte : UInt8)
  /-- The request line was driven, and whether that worked. -/
  | drove (level : Level) (worked : Bool)
  | paused (nanos : Nat)
  deriving DecidableEq, Repr

/-- A board and what has happened on it, most recent first. -/
structure Traced (σ : Type) where
  board : σ
  history : List Signal
  deriving DecidableEq, Repr

namespace Traced

variable {σ : Type}

def watch (board : σ) : Traced σ := ⟨board, []⟩

def trace (traced : Traced σ) : List Signal := traced.history.reverse

def forget (traced : Traced σ) : Traced σ := { traced with history := [] }

def note (signal : Signal) (board : σ) (traced : Traced σ) : Traced σ :=
  ⟨board, signal :: traced.history⟩

@[simp] theorem trace_watch (board : σ) : (watch board).trace = [] := rfl

@[simp] theorem trace_note (signal : Signal) (board : σ) (traced : Traced σ) :
    (traced.note signal board).trace = traced.trace ++ [signal] := by
  simp [note, trace]

end Traced

instance {σ : Type} [Board σ] : Board (Traced σ) where
  poll traced :=
    let (status, board) := Registers.poll traced.board
    (status, traced.note (.polled status) board)
  sample traced :=
    let (byte, board) := Registers.sample traced.board
    (byte, traced.note (.sampled byte) board)
  send byte traced := traced.note (.sent byte) (Registers.send byte traced.board)
  drive level traced :=
    let (worked, board) := Board.drive level traced.board
    (worked, traced.note (.drove level worked) board)
  pause nanos traced := traced.note (.paused nanos) (Board.pause nanos traced.board)
  now traced :=
    let (instant, board) := Board.now traced.board
    (instant, { traced with board })

namespace Signal

def sentByte? : Signal → Option UInt8
  | .sent byte => some byte
  | _ => none

/-- The level that the request line was successfully driven to, if that is what happened. -/
def level? : Signal → Option Level
  | .drove level true => some level
  | _ => none

def isPoll : Signal → Bool
  | .polled _ => true
  | _ => false

def isSample : Signal → Bool
  | .sampled _ => true
  | _ => false

end Signal

end EcLink
