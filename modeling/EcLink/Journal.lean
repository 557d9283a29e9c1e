import EcLink.Terminal

/-!
# A journal of notices

A journal keeps the lines that a console would show, one entry for each line. The link and its
peripherals may speak in different styles and still share one journal, so that the order of what
they say can be seen.
-/

namespace EcLink

inductive Style
  | labelled
  | terminal (verbose : Bool)
  | silent
  deriving DecidableEq, Repr

def Style.entries (style : Style) (notice : Notice) : List String :=
  match style with
  | .labelled =>
      match notice.severity with
      | .debug => ["debug: " ++ notice.text]
      | .error => ["error: " ++ notice.text]
  | .terminal verbose =>
      match notice.line? verbose with
      | none => []
      | some line => line.splitOn lineEnd
  | .silent => []

/-- What was said, most recent first. -/
structure Journal where
  linkStyle : Style
  peripheralStyle : Style
  history : List String
  deriving DecidableEq, Repr

namespace Journal

def blank (linkStyle peripheralStyle : Style) : Journal := ⟨linkStyle, peripheralStyle, []⟩

def lines (journal : Journal) : List String := journal.history.reverse

def forget (journal : Journal) : Journal := { journal with history := [] }

def mentions (text : String) (journal : Journal) : Bool :=
  journal.history.any fun line => (line.find? text).isSome

def tell (notice : Notice) (journal : Journal) : Journal :=
  let style := match notice.speaker with
    | .link => journal.linkStyle
    | .peripheral => journal.peripheralStyle
  { journal with history := (style.entries notice).reverse ++ journal.history }

instance : Console Journal where
  tell := tell

theorem lines_tell (notice : Notice) (journal : Journal) :
    ∃ entries, (journal.tell notice).lines = journal.lines ++ entries := by
  simp only [tell, lines, List.reverse_append, List.reverse_reverse]
  exact ⟨_, rfl⟩

end Journal

end EcLink
