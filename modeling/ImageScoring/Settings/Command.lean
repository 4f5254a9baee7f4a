import ImageScoring.Files.Fault
import ImageScoring.Text.Utf8

/-!
# Commands

A command is a program and its arguments. The system hands neither of them on where a zero octet is
in one, and no argument that is very long.
-/

namespace ImageScoring

/-- A program and its arguments. -/
structure Command where
  program : String
  args : List String
  deriving DecidableEq, Repr

namespace Command

/-- Whether a zero octet is in the program's name or in an argument. -/
def holdsZero (c : Command) : Bool :=
  (c.program :: c.args).any fun text => 0 ∈ Utf8.ofText text

/-- The most octets of an argument. -/
def argumentLimit : Nat := 2 ^ 17 - 1

/-- Whether an argument has more octets than the system takes. -/
def isTooLong (c : Command) : Bool :=
  c.args.any fun arg => argumentLimit < (Utf8.ofText arg).length

/-- What comes of starting a command: one with a zero octet never gets as far as the system. -/
def started {α : Type} (c : Command) (outcome : Except FileFault α) : Except FileFault α :=
  if c.holdsZero then .error .zeroInCommand else outcome

end Command

end ImageScoring
