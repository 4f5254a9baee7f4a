import ImageScoring.Text.Blank
import ImageScoring.Text.Utf8

/-!
# Counts

An unsigned decimal number as text: one or more ASCII digits, leading zeros and one leading plus
sign allowed. `Count.read?` reads a text that is nothing else and stays below a limit,
`Count.ofLine?` a line that may have white space around the number.
-/

namespace ImageScoring.Count

/-- One past the largest length: lengths have 64 bits. -/
def lengthLimit : Nat := 2 ^ 64

/-- One past the largest display number: display numbers have 32 bits. -/
def displayLimit : Nat := 2 ^ 32

/-- The value of a digit character. -/
def digit? (c : Char) : Option Nat :=
  if '0' ≤ c ∧ c ≤ '9' then some (c.toNat - '0'.toNat) else none

/-- The value of a sequence of digits that continue the number `acc`. -/
def digitsFrom? (acc : Nat) : List Char → Option Nat
  | [] => some acc
  | c :: cs =>
    match digit? c with
    | some d => digitsFrom? (10 * acc + d) cs
    | none => none

/-- The value of one or more digits. -/
def digits? : List Char → Option Nat
  | [] => none
  | cs => digitsFrom? 0 cs

/-- The value below `limit` of a number that takes all of `cs`. -/
def read? (limit : Nat) (cs : List Char) : Option Nat :=
  let value? := match cs with
    | '+' :: rest => digits? rest
    | rest => digits? rest
  value?.filter (· < limit)

/-- The length that a line holds: UTF-8 text that is a number when trimmed. -/
def ofLine? (line : Bytes) : Option Nat :=
  match Utf8.decode? line with
  | .ok cs => read? lengthLimit (Text.trim cs)
  | .error _ => none

/-- The decimal digits of `n`. -/
def text (n : Nat) : String := toString n

/-- The octets of the decimal digits of `n`. -/
def line (n : Nat) : Bytes := ascii (text n)

end ImageScoring.Count
