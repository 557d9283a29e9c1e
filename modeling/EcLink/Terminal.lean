import EcLink.Notice

/-!
# A line terminal

Writes one line for each notice to a device that may run out of room. Errors are always written,
with a word in front; debug notices only on request, as they are. A console that cannot be
written to has nowhere to report that, so **a line that does not fit is cut at the byte where
the room ended** and its rest is lost; the next line starts afresh.
-/

namespace EcLink

def lineEnd : String := "\r\n"

/-- The line that a notice makes, without its end; none for a debug notice that is not wanted. -/
def Notice.line? (verbose : Bool) (notice : Notice) : Option String :=
  match notice.severity with
  | .error => some ("error: " ++ notice.text)
  | .debug => if verbose then some notice.text else none

/-- A terminal, what has been written to it, and how many bytes it will still take; no limit if
    that is absent. -/
structure Terminal where
  verbose : Bool
  room : Option Nat
  written : List UInt8
  deriving DecidableEq, Repr

namespace Terminal

/-- Write as many of the bytes as there is room for. -/
def write (bytes : List UInt8) (terminal : Terminal) : Terminal :=
  match terminal.room with
  | none => { terminal with written := terminal.written ++ bytes }
  | some room =>
      { terminal with
        room := some (room - bytes.length)
        written := terminal.written ++ bytes.take room }

def tell (notice : Notice) (terminal : Terminal) : Terminal :=
  match notice.line? terminal.verbose with
  | none => terminal
  | some line => terminal.write (line ++ lineEnd).toUTF8.toList

def addRoom (bytes : Nat) (terminal : Terminal) : Terminal :=
  { terminal with room := terminal.room.map (· + bytes) }

instance : Console Terminal where
  tell := tell

theorem length_written_write {terminal : Terminal} {room : Nat}
    (hlimited : terminal.room = some room) (bytes : List UInt8) :
    (terminal.write bytes).written.length = terminal.written.length + min room bytes.length := by
  simp [write, hlimited]

end Terminal

end EcLink
