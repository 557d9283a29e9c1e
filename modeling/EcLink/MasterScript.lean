import EcLink.Config
import EcLink.Status

/-!
# What a controller puts on the bus

A script is a list of steps, one for each status poll: the word that the poll finds, and the byte
that the master has put into the data register by then, if it has put one there. The two kinds of
transaction and the pauses between them are short scripts, and longer ones are made by appending.
-/

namespace EcLink

/-- What one poll finds. -/
structure ScriptStep where
  status : Status
  data : Option UInt8
  deriving DecidableEq, Repr

namespace MasterScript

def usualAddress : UInt8 := ({} : Config).address

def idle : ScriptStep := ⟨.quiet, none⟩

/-- The bytes that follow an address. **The stop comes with the last byte**, and by itself if
    there is none. -/
def writtenBytes : List UInt8 → List ScriptStep
  | [] => [⟨.stopped, none⟩]
  | [last] => [⟨.stopped, some last⟩]
  | byte :: rest => ⟨.written, some byte⟩ :: writtenBytes rest

def writes (address : UInt8) (bytes : List UInt8) : List ScriptStep :=
  ⟨.start, some address⟩ :: writtenBytes bytes

/-- The master reads a payload of some length from an address. -/
def reads (address : UInt8) (length : Nat) : List ScriptStep :=
  [⟨.start, some address⟩, ⟨.written, some readCommand⟩, ⟨.readRequest, none⟩] ++
    List.replicate length ⟨.readOut, none⟩ ++ [⟨.stopped, none⟩]

def exchange (address : UInt8) (length : Nat) (response : List UInt8) : List ScriptStep :=
  reads address length ++ writes address response

/-- Idle polls for about so many milliseconds, at the default spacing of polls. -/
def silence (millis : Nat) : List ScriptStep := List.replicate (millis * 10) idle

theorem length_writtenBytes (bytes : List UInt8) :
    (writtenBytes bytes).length = max bytes.length 1 := by
  fun_induction writtenBytes bytes with
  | case1 => rfl
  | case2 => rfl
  | case3 byte rest hnonempty ih =>
      have hpositive : rest.length ≠ 0 := fun hzero => hnonempty (List.length_eq_zero_iff.mp hzero)
      simp only [List.length_cons, ih]
      omega

end MasterScript

end EcLink
