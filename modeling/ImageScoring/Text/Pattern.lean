import ImageScoring.Text.Pattern.Brackets

/-!
# Patterns

A pattern is a regular expression: alternatives between bars, each a sequence of atoms, sets in
brackets and groups in parentheses, each of which may be repeated. `Pattern.isValid` says whether a
text is a pattern that can be matched against UTF-8 without tables of character properties and
without looking around. Repetitions with a count are none of these.
-/

namespace ImageScoring.Text.Pattern

/-- A group that is open, or the whole pattern: the flags that hold again behind it, the
alternatives that are complete, and the parts of the current one. -/
structure Group where
  flags : Flags := {}
  complete : Parts := {}
  parts : Parts := {}
  deriving DecidableEq, Repr

/-- How deep the alternatives are together. -/
def Group.depth (g : Group) : Nat :=
  (g.complete.add g.parts.depth).depth

/-- How far a pattern has been read. -/
structure Reading where
  flags : Flags := {}
  /-- The innermost open group, and those around it. -/
  group : Group := {}
  around : List Group := []
  /-- The depth of the last part, if it may be repeated. -/
  last : Option Nat := none
  /-- The names of groups. -/
  names : List (List Char) := []
  deriving DecidableEq, Repr

namespace Reading

/-- After one more part that may be repeated. -/
def add (r : Reading) (depth : Nat) : Reading :=
  { r with group := { r.group with parts := r.group.parts.add depth }, last := some depth }

/-- After an atom. -/
def atom? (r : Reading) (a : Atom) : Option Reading :=
  if r.flags.admits a then some (r.add 0) else none

/-- After a mark that repeats the last part. -/
def repeat? (r : Reading) : Option Reading :=
  r.last.map fun depth =>
    let parts := r.group.parts
    { r with
      group := { r.group with parts := { parts with deepest := max parts.deepest (depth + 1) } }
      last := some (depth + 1) }

/-- Behind a bar. -/
def alternate (r : Reading) : Reading :=
  { r with
    group := { r.group with complete := r.group.complete.add r.group.parts.depth, parts := {} }
    last := none }

/-- In a group that has been opened under some flags. -/
def enter (r : Reading) (flags : Flags) : Reading :=
  { r with
    flags := flags, group := { flags := r.flags }, around := r.group :: r.around, last := none }

/-- Behind a closing parenthesis. -/
def close? (r : Reading) : Option Reading :=
  match r.around with
  | [] => none
  | outer :: around =>
    some ({ r with flags := r.group.flags, group := outer, around := around }.add
      (r.group.depth + 1))

/-- Behind flags that hold for the rest of the group. -/
def setFlags (r : Reading) (text : List Char) : Reading :=
  { r with
    flags := r.flags.under text
    group := { r.group with parts := r.group.parts.add 0 }
    last := none }

/-- Whether a character may stand in the name of a group. -/
def mayName (first : Bool) (c : Char) : Bool :=
  c == '_' || if first then isLetter c else c == '.' || c == '[' || c == ']' || isAlphanumeric c

/-- In a group that has been opened with a name, which no other group has. -/
def enterNamed? (r : Reading) (cs : List Char) : Option (Reading × List Char) :=
  let name := cs.takeWhile (· ≠ '>')
  match name, cs.drop name.length with
  | c :: more, '>' :: rest =>
    if mayName true c && more.all (mayName false) && !r.names.contains name then
      some ({ r.enter r.flags with names := name :: r.names }, rest)
    else none
  | _, _ => none

/-- Behind flags, which hold for the rest of the group or for one that they open. -/
def flagged? (r : Reading) (cs : List Char) : Option (Reading × List Char) :=
  let text := cs.takeWhile fun c => c ≠ ':' && c ≠ ')'
  if Flags.isWritten text then
    match cs.drop text.length with
    | ':' :: rest => some (r.enter (r.flags.under text), rest)
    | ')' :: rest => if text.isEmpty then none else some (r.setFlags text, rest)
    | _ => none
  else none

/-- Behind an opening parenthesis. -/
def open? (r : Reading) (cs : List Char) : Option (Reading × List Char) :=
  match r.flags.skip cs with
  | '?' :: 'P' :: '<' :: cs => r.enterNamed? cs
  | '?' :: '<' :: cs => r.enterNamed? cs
  | '?' :: cs => r.flagged? cs
  | cs => some (r.enter r.flags, cs)

/-- After what stands at the front of a text, and what follows it. A question mark behind a mark of
repetition belongs to that. -/
def step? (r : Reading) : List Char → Option (Reading × List Char)
  | [] => none
  | c :: cs =>
    if c = '(' then r.open? cs
    else if c = ')' then r.close?.map (·, cs)
    else if c = '|' then some (r.alternate, cs)
    else if c = '[' then (brackets? r.flags cs).map fun (depth, cs) => (r.add depth, cs)
    else if c = '?' ∨ c = '*' ∨ c = '+' then
      r.repeat?.map fun r => (r, if cs.head? = some '?' then cs.tail else cs)
    else if c = '\x7b' then none
    else if c = '\\' then (escape? r.flags cs).bind fun (a, cs) => (r.atom? a).map (·, cs)
    else if c = '.' then (r.atom? .dot).map (·, cs)
    else if c = '^' ∨ c = '$' then (r.atom? .textEdge).map (·, cs)
    else (r.atom? (.character c)).map (·, cs)

/-- The most levels of a pattern. -/
def depthLimit : Nat := 250

/-- Whether a pattern may end here. -/
def isWhole (r : Reading) : Bool :=
  r.around.isEmpty && r.group.depth ≤ depthLimit

end Reading

/-- Whether the rest of a pattern is valid; `fuel` bounds its parts. -/
def isValidFrom : (fuel : Nat) → Reading → List Char → Bool
  | 0, _, _ => false
  | fuel + 1, r, cs =>
    match r.flags.skip cs with
    | [] => r.isWhole
    | cs =>
      match r.step? cs with
      | some (r, cs) => isValidFrom fuel r cs
      | none => false

/-- Whether a text is a pattern that can be matched. -/
def isValid (cs : List Char) : Bool :=
  isValidFrom (cs.length + 1) {} cs

end ImageScoring.Text.Pattern
