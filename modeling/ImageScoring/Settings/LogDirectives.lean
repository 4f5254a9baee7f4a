import ImageScoring.Number.Prefix
import ImageScoring.Text.Alphanumeric
import ImageScoring.Text.Count
import ImageScoring.Text.Keyword
import ImageScoring.Text.Pattern

/-!
# Log directives

A log filter is a list of directives with commas between them, empty ones passed over. A directive
is a level, a target, or a target or a span in brackets with a level behind an equals sign; a span
may name one field in braces, with a truth value, a number or a pattern for its value. This module
says which texts are such lists.

White space around a directive is passed over, but only where its parts begin and end is told
without that space: the parts themselves are taken from the text that has it. So behind white space
parts are shifted, a level is never one, and a part may begin or end within a character, where
reading breaks off.
-/

namespace ImageScoring.LogDirectives

/-- Why a text is not read as a list of directives. -/
inductive Flaw where
  | notDirective
  /-- A part begins or ends within a character. -/
  | torn
  deriving DecidableEq, Repr

/-- How far a directive has been read; parts begin at the offset told. -/
inductive Stage where
  | start
  /-- In a level or a target. -/
  | name
  /-- In the brackets of a span. -/
  | span (low : Nat)
  /-- In the field of a span. -/
  | field (low : Nat)
  /-- Behind the braces of a span. -/
  | fields
  /-- Behind the brackets of a span. -/
  | target
  /-- In a level. -/
  | level (low : Nat)
  deriving DecidableEq, Repr

/-! ### Parts -/

/-- Whether an offset is one between two characters of a text. -/
def isBoundary (text : Bytes) (offset : Nat) : Bool :=
  match text[offset]? with
  | some b => b < 0x80 || 0xC0 ≤ b
  | none => true

/-- The part of a text between two offsets. -/
def part (text : Bytes) (low high : Nat) : Except Flaw (List Char) :=
  if isBoundary text low && isBoundary text high then
    match Utf8.decode? ((text.take high).drop low) with
    | .ok cs => .ok cs
    | .error _ => .error .torn
  else .error .torn

/-- The words for levels. -/
def levels : List (String × Unit) :=
  ["off", "error", "warn", "info", "debug", "trace"].map (·, ())

/-- The greatest number of a level; zero stands for none. -/
def greatestLevel : Nat := 5

/-- Whether a text is a level: a word in any case, a number, or nothing. -/
def isLevel (cs : List Char) : Bool :=
  cs.isEmpty || (Count.read? Count.lengthLimit cs).any (· ≤ greatestLevel) ||
    (levels.lookup (String.ofList (cs.map Char.toLower))).isSome

/-- The words for numbers, behind a sign or without one. -/
def numberWords : List Bytes := [ascii "inf", ascii "infinity", ascii "nan"]

/-- Whether a text is a decimal number with an optional sign, or a word for one in any case. -/
def isNumber (text : Bytes) : Bool :=
  let magnitude := match text with
    | 0x2B :: rest | 0x2D :: rest => rest
    | rest => rest
  (Prefix.decimal? magnitude).any (·.length == magnitude.length) ||
    numberWords.contains (magnitude.map Prefix.lowerByte)

/-- Whether a text may be the value of a field; a truth value is a pattern too. -/
def isValue (cs : List Char) : Bool :=
  isNumber (Utf8.encode cs) || Text.Pattern.isValid cs

/-- Whether a text is a field: a name, and behind an equals sign a value, which another equals sign
ends. -/
def isField (cs : List Char) : Bool :=
  match cs.dropWhile (· ≠ '=') with
  | [] => !cs.isEmpty
  | _ :: rest => isValue (rest.takeWhile (· ≠ '='))

/-! ### Directives -/

/-- Whether a directive may begin with a character: a letter, a numeral, or one of three marks. -/
def mayBegin (c : Char) : Bool :=
  Text.isAlphanumeric c || c == '-' || c == ':' || c == '_'

/-- The stage after one more character, which stands at the offset `here`. -/
def Stage.next (text : Bytes) (here : Nat) : Stage → Char → Except Flaw Stage
  | .start, c =>
    if c = '[' then .ok (.span (here + 1))
    else if mayBegin c then .ok .name
    else .error .notDirective
  | .name, c =>
    if c = '=' then (part text 0 here).map fun _ => .level (here + 1)
    else if c = '[' then (part text 0 here).map fun _ => .span (here + 1)
    else .ok .name
  | .span low, c =>
    if c = ']' then (part text low here).map fun _ => .target
    else if c = '\x7b' then (part text low here).map fun _ => .field (here + 1)
    else .ok (.span low)
  | .field low, c =>
    if c = '\x7d' then do
      if isField (← part text low here) then return .fields else .error .notDirective
    else .ok (.field low)
  | .fields, c => if c = ']' then .ok .target else .error .notDirective
  | .target, c => if c = '=' then .ok (.level (here + 1)) else .error .notDirective
  | .level low, _ => .ok (.level low)

/-- The stage after characters that begin at the offset `here`. -/
def Stage.after (text : Bytes) (here : Nat) (stage : Stage) : List Char → Except Flaw Stage
  | [] => .ok stage
  | c :: cs => do (← stage.next text here c).after text (here + c.utf8Size) cs

/-- Makes sure that a directive may end at a stage. -/
def Stage.finish (text : Bytes) : Stage → Except Flaw Unit
  | .name | .target => .ok ()
  | .level low => do
    unless isLevel (← part text low text.length) do .error .notDirective
  | .start | .span _ | .field _ | .fields => .error .notDirective

/-- Reads a directive. -/
def readOne (cs : List Char) : Except Flaw Unit := do
  let text := Utf8.encode cs
  (← Stage.start.after text 0 (Text.trim cs)).finish text

/-- The parts of a text between commas; `acc` holds the current one, last character first. -/
def partsFrom (acc : List Char) : List Char → List (List Char)
  | [] => [acc.reverse]
  | c :: cs => if c = ',' then acc.reverse :: partsFrom [] cs else partsFrom (c :: acc) cs

/-- Reads a list of directives, up to the first flaw. -/
def read (text : String) : Except Flaw Unit :=
  ((partsFrom [] text.toList).filter fun cs => !cs.isEmpty).forM readOne

end ImageScoring.LogDirectives
