import ImageScoring.Settings.Config

/-!
# Display server commands

The arguments of a display server are templates: every placeholder in them is replaced by the
number of the display. Occurrences are taken from the left and do not overlap.
-/

namespace ImageScoring.Template

/-- The characters of the placeholder. -/
def placeholder : List Char := displayPlaceholder.toList

/-- The characters with every placeholder replaced by `number`; `skip` characters of the current
placeholder are still to be passed over. -/
def fillFrom (number : List Char) : (skip : Nat) → List Char → List Char
  | _, [] => []
  | skip + 1, _ :: cs => fillFrom number skip cs
  | 0, c :: cs =>
    if placeholder.isPrefixOf (c :: cs) then
      number ++ fillFrom number (placeholder.length - 1) cs
    else c :: fillFrom number 0 cs

/-- The argument that a template gives for a display. -/
def fill (number : Nat) (template : String) : String :=
  String.ofList (fillFrom (toString number).toList 0 template.toList)

/-- The command that starts the server of a display. -/
def command (server : Command) (number : Nat) : Command where
  program := server.program
  args := server.args.map (fill number)

end ImageScoring.Template
