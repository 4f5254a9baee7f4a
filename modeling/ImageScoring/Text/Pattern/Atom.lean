import ImageScoring.Text.Alphanumeric
import ImageScoring.Text.Blank

/-!
# Atoms of patterns

A pattern is built of atoms: characters, sets of characters that have a letter after a backslash,
the dot, and places between characters. Flags say how they are meant. A pattern is matched against
UTF-8, and no table of character properties is at hand for it. So where characters count as those of
Unicode, neither sets with a letter nor edges of words nor the folding of cases can be had; where
octets count, nothing may match an octet outside ASCII by itself.
-/

namespace ImageScoring.Text.Pattern

/-- How a part of a pattern is meant. -/
structure Flags where
  /-- The case of letters does not count. -/
  anyCase : Bool := false
  /-- Characters are those of Unicode, not octets. -/
  unicode : Bool := true
  /-- White space in the pattern does not count, nor do comments from a number sign on. -/
  spaced : Bool := false
  deriving DecidableEq, Repr

namespace Flags

/-- The letters of flags. -/
def letters : List Char := ['i', 'm', 's', 'U', 'u', 'R', 'x']

/-- Whether a text writes flags: letters, each once, and behind one hyphen those turned off. -/
def isWritten (text : List Char) : Bool :=
  text.all (fun c => c == '-' || letters.contains c) && text.Nodup && text.getLast? != some '-'

/-- A flag under a text that writes flags. -/
def one (letter : Char) (text : List Char) (old : Bool) : Bool :=
  if letter ∈ text then letter ∈ text.takeWhile (· ≠ '-') else old

/-- The flags under a text that writes flags; the letters of the others change nothing here. -/
def under (text : List Char) (f : Flags) : Flags where
  anyCase := one 'i' text f.anyCase
  unicode := one 'u' text f.unicode
  spaced := one 'x' text f.spaced

end Flags

/-! ### White space and comments -/

/-- What stands behind white space and comments; `comment` tells that one has begun. -/
def skipFrom (comment : Bool) : List Char → List Char
  | [] => []
  | c :: cs =>
    if comment then skipFrom (c ≠ '\n') cs
    else if isBlank c then skipFrom false cs
    else if c = '#' then skipFrom true cs
    else c :: cs

/-- What stands behind all that does not count. -/
def Flags.skip (f : Flags) (cs : List Char) : List Char :=
  if f.spaced then skipFrom false cs else cs

/-- The character that decides whether a hyphen before it is one of a range: behind white space and
one number sign, or the first one where only those are left. -/
def Flags.decisive? (f : Flags) (cs : List Char) : Option Char :=
  if f.spaced then
    let left := match cs.dropWhile isBlank with
      | '#' :: rest => rest.dropWhile isBlank
      | left => left
    left.head?.or cs.head?
  else cs.head?

/-! ### Atoms -/

/-- An atom of a pattern. -/
inductive Atom where
  | character (c : Char)
  /-- An octet told by two hexadecimal digits. -/
  | octet (n : Nat)
  /-- The digits, the white space or the letters of words, or all else. -/
  | letterSet (negated : Bool)
  | dot
  | textEdge
  | wordEdge
  deriving DecidableEq, Repr

/-- One past the octets of ASCII. -/
def asciiLimit : Nat := 0x80

/-- Whether an atom can be had by itself. -/
def Flags.admits (f : Flags) : Atom → Bool
  | .character _ => !(f.unicode && f.anyCase)
  | .octet n => if f.unicode then !f.anyCase else n < asciiLimit
  | .letterSet negated => !f.unicode && !negated
  | .dot => f.unicode
  | .textEdge => true
  | .wordEdge => !f.unicode

/-- The characters for which a letter behind a backslash stands. -/
def controls : List (Char × Nat) :=
  [('a', 0x07), ('f', 0x0C), ('t', 0x09), ('n', 0x0A), ('r', 0x0D), ('v', 0x0B)]

/-- The value of a hexadecimal digit in either case. -/
def hexDigit? (c : Char) : Option Nat :=
  if '0' ≤ c ∧ c ≤ '9' then some (c.toNat - '0'.toNat)
  else if 'a' ≤ c ∧ c ≤ 'f' then some (c.toNat - 'a'.toNat + 10)
  else if 'A' ≤ c ∧ c ≤ 'F' then some (c.toNat - 'A'.toNat + 10)
  else none

/-- The number that `count` hexadecimal digits continue from `acc`. -/
def hexFrom? (f : Flags) : (count acc : Nat) → List Char → Option (Nat × List Char)
  | 0, acc, cs => some (acc, cs)
  | count + 1, acc, cs =>
    match f.skip cs with
    | [] => none
    | c :: cs => (hexDigit? c).bind fun d => hexFrom? f count (16 * acc + d) cs

/-- How many digits tell a character, by the letter in front of them. -/
def hexLengths : List (Char × Nat) := [('x', 2), ('u', 4), ('U', 8)]

/-- The atom behind a backslash: what is neither a letter nor a digit stands for itself. Sets told
by a property are not known, and neither are references to groups. -/
def escape? (f : Flags) : List Char → Option (Atom × List Char)
  | [] => none
  | c :: cs =>
    match hexLengths.lookup c, controls.lookup c with
    | some count, _ => do
      let (n, cs) ← hexFrom? f count 0 cs
      guard n.isValidChar
      return (if count = 2 then .octet n else .character (Char.ofNat n), cs)
    | none, some n => some (.character (Char.ofNat n), cs)
    | none, none =>
      if c ∈ ['d', 's', 'w'] then some (.letterSet false, cs)
      else if c ∈ ['D', 'S', 'W'] then some (.letterSet true, cs)
      else if c ∈ ['A', 'z'] then some (.textEdge, cs)
      else if c ∈ ['b', 'B', '<', '>'] then some (.wordEdge, cs)
      else if c.toNat < asciiLimit && !c.isAlphanum then some (.character c, cs)
      else none

end ImageScoring.Text.Pattern
