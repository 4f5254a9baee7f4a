import ImageScoring.Text.Utf8

/-!
# Paths

A path is a byte string in which slashes separate names. This module joins and splits paths; it
says nothing about what they lead to.
-/

namespace ImageScoring

/-- A path as it is written. -/
abbrev Path := Bytes

/-- A name between two slashes. -/
abbrev Name := Bytes

namespace Path

/-- The octet between two names. -/
def slash : UInt8 := 0x2F

/-- The path that a text writes. -/
def ofText (text : String) : Path := Utf8.ofText text

/-- The path as it is shown. -/
def display (path : Path) : String := Utf8.toTextLossy path

def isAbsolute (path : Path) : Bool := path.head? == some slash

/-- The second path seen from the first; an absolute one stands for itself. -/
def join (base path : Path) : Path :=
  if path.isAbsolute then path
  else if base.isEmpty || base.getLast? == some slash then base ++ path
  else base ++ slash :: path

/-- The names of a path; `acc` holds the octets of the current one, last one first. -/
def splitFrom (acc : Bytes) : Path → List Name
  | [] => [acc.reverse]
  | b :: rest => if b = slash then acc.reverse :: splitFrom [] rest else splitFrom (b :: acc) rest

/-- A step of a path. -/
inductive Component where
  /-- The slash that an absolute path begins with. -/
  | root
  /-- A dot that a relative path begins with. -/
  | here
  | up
  | named (name : Name)
  deriving DecidableEq, Repr

def dot : Name := [0x2E]

def dotDot : Name := [0x2E, 0x2E]

/-- The step that one of the later names of a path is: an empty name and a dot are none. -/
def component? (name : Name) : Option Component :=
  if name = [] ∨ name = dot then none
  else if name = dotDot then some .up
  else some (.named name)

/-- The steps of a path. Empty names count nowhere, a dot only at the front of a relative path. -/
def components (path : Path) : List Component :=
  let names := splitFrom [] path
  let steps := names.filterMap component?
  if path.isAbsolute then .root :: steps
  else if names.head? = some dot then .here :: steps
  else steps

/-- The octets of a step. -/
def Component.bytes : Component → Bytes
  | .root => [slash]
  | .here => dot
  | .up => dotDot
  | .named n => n

/-- The path with those steps. -/
def ofComponents (steps : List Component) : Path :=
  steps.foldl (fun path step => path.join step.bytes) []

/-- The path without its last step; the root and the empty path have none. -/
def parent? (path : Path) : Option Path :=
  match path.components.reverse with
  | [] => none
  | .root :: _ => none
  | _ :: rest => some (ofComponents rest.reverse)

/-- The name that a path ends in. -/
def fileName? (path : Path) : Option Name :=
  match path.components.getLast? with
  | some (.named n) => some n
  | _ => none

end Path

end ImageScoring
