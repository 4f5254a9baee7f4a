import ImageScoring.Text.Pattern.Atom

/-!
# Sets of characters in brackets

A set in brackets lists characters, ranges, sets with a letter, named sets and other sets in
brackets; two ampersands, hyphens or tildes make the intersection, the difference or the symmetric
difference of what stands on their two sides. This module says where such a set ends, if it is one,
and how deep it is.
-/

namespace ImageScoring.Text.Pattern

/-- Parts that follow each other: how many, and how deep the deepest one is. -/
structure Parts where
  count : Nat := 0
  deepest : Nat := 0
  deriving DecidableEq, Repr

/-- The parts with one more. -/
def Parts.add (p : Parts) (depth : Nat) : Parts where
  count := p.count + 1
  deepest := max p.deepest depth

/-- How deep the parts are together: one alone is as deep as it is. -/
def Parts.depth (p : Parts) : Nat :=
  if p.count ≤ 1 then p.deepest else p.deepest + 1

/-- A set that has been opened: what stands before the last operation, if there is one, and the
parts since then. -/
structure Opened where
  before : Option Nat := none
  parts : Parts := {}
  deriving DecidableEq, Repr

/-- How deep a set is without its brackets. -/
def Opened.depth (o : Opened) : Nat :=
  match o.before with
  | none => o.parts.depth
  | some before => max before o.parts.depth + 1

/-- The set with one more part. -/
def Opened.add (o : Opened) (depth : Nat) : Opened :=
  { o with parts := o.parts.add depth }

/-- The set behind an operation. -/
def Opened.operate (o : Opened) : Opened where
  before := some o.depth

/-- Whether a character can be had in a set. -/
def Flags.admitsMember (f : Flags) (c : Char) : Bool :=
  if f.unicode then !f.anyCase else c.toNat < asciiLimit

/-- Whether a named set can be had, or all but it. -/
def Flags.admitsNamed (f : Flags) (negated : Bool) : Bool :=
  if f.unicode then !f.anyCase else !negated

/-- The names of sets. -/
def setNames : List String :=
  ["alnum", "alpha", "ascii", "blank", "cntrl", "digit", "graph", "lower", "print", "punct",
    "space", "upper", "word", "xdigit"]

/-- A named set behind its bracket: whether it is negated, and what follows it. -/
def named? : List Char → Option (Bool × List Char)
  | ':' :: cs =>
    let (negated, cs) := match cs with
      | '^' :: cs => (true, cs)
      | cs => (false, cs)
    let name := cs.takeWhile (· ≠ ':')
    match cs.drop name.length with
    | ':' :: ']' :: rest =>
      if String.ofList name ∈ setNames then some (negated, rest) else none
    | _ => none
  | _ => none

/-- The hyphens at the front of a set, each of which stands for itself. -/
def hyphens (f : Flags) : (fuel : Nat) → Opened → List Char → Opened × List Char
  | 0, o, cs => (o, cs)
  | fuel + 1, o, cs =>
    match f.skip cs with
    | '-' :: cs => hyphens f fuel (o.add 0) cs
    | cs => (o, cs)

/-- The beginning of a set behind its bracket: a circumflex that negates it, hyphens, and a closing
bracket that stands for itself where nothing is in front of it. -/
def open? (f : Flags) (cs : List Char) : Option (Opened × List Char) := do
  let cs := f.skip cs
  let (negated, cs) := match cs with
    | '^' :: cs => (true, cs)
    | cs => (false, cs)
  guard (f.unicode ∨ !negated)
  let (o, cs) := hyphens f cs.length {} cs
  let (o, cs) := match o.parts.count, cs with
    | 0, ']' :: cs => (o.add 0, f.skip cs)
    | _, cs => (o, cs)
  guard (o.parts.count = 0 ∨ f.admitsMember '-')
  return (o, cs)

/-- A single member of a set, or the end of a range: an atom, and what follows it. -/
def member? (f : Flags) : List Char → Option (Atom × List Char)
  | [] => none
  | '\\' :: cs => escape? f cs
  | c :: cs => some (.character c, cs)

/-- The character that an atom stands for. -/
def Atom.character? : Atom → Option Char
  | .character c => some c
  | .octet n => some (Char.ofNat n)
  | .letterSet _ | .dot | .textEdge | .wordEdge => none

/-- Whether an atom can be had as a member of a set. -/
def Flags.admitsAlone (f : Flags) (a : Atom) : Bool :=
  match a with
  | .letterSet _ => f.admits a
  | _ => a.character?.any f.admitsMember

/-- A member or a range at the front, and what follows it. A hyphen makes a range unless a bracket
or another hyphen follows it. -/
def range? (f : Flags) (cs : List Char) : Option (List Char) := do
  let (first, cs) ← member? f cs
  let single := if f.admitsAlone first then some cs else none
  match f.skip cs with
  | '-' :: rest =>
    if f.decisive? rest ∈ [some ']', some '-'] then single
    else
      let (second, cs) ← member? f (f.skip rest)
      let low ← first.character?
      let high ← second.character?
      guard (low ≤ high ∧ f.admitsMember low ∧ f.admitsMember high)
      return cs
  | _ => single

/-- The depth of a set and what follows it, from within the brackets of `o` and of those around it;
`fuel` bounds the parts. -/
def bracketsFrom? (f : Flags) : (fuel : Nat) → Opened → List Opened → List Char →
    Option (Nat × List Char)
  | 0, _, _, _ => none
  | fuel + 1, o, around, cs =>
    match f.skip cs with
    | [] => none
    | '[' :: cs =>
      match named? cs with
      | some (negated, cs) =>
        if f.admitsNamed negated then bracketsFrom? f fuel (o.add 0) around cs else none
      | none =>
        match open? f cs with
        | some (inner, cs) => bracketsFrom? f fuel inner (o :: around) cs
        | none => none
    | ']' :: cs =>
      match around with
      | [] => some (o.depth + 1, cs)
      | outer :: around => bracketsFrom? f fuel (outer.add (o.depth + 1)) around cs
    | '&' :: '&' :: cs => bracketsFrom? f fuel o.operate around cs
    | '-' :: '-' :: cs => bracketsFrom? f fuel o.operate around cs
    | '~' :: '~' :: cs => bracketsFrom? f fuel o.operate around cs
    | cs =>
      match range? f cs with
      | some cs => bracketsFrom? f fuel (o.add 0) around cs
      | none => none

/-- The depth of the set behind an opening bracket, and what follows it. -/
def brackets? (f : Flags) (cs : List Char) : Option (Nat × List Char) := do
  let (o, cs) ← open? f cs
  bracketsFrom? f (cs.length + 1) o [] cs

end ImageScoring.Text.Pattern
