/-!
# Binary64 numbers

A binary64 number is a sign and a magnitude, and the magnitude is the 63-bit word of the
interchange format. Words are ordered as the numbers they stand for, so the word of the finite
number nearest to a fraction is found by one division: `nearest` takes a fraction of the least
positive number, 2⁻¹⁰⁷⁴, and rounds it half to even. Sums, products and quotients are the exact
results, rounded that way.
-/

namespace ImageScoring

/-- A binary64 number: its sign, and the 63-bit word of its magnitude. -/
structure Binary64 where
  negative : Bool
  magnitude : Nat
  magnitude_lt : magnitude < 2 ^ 63 := by decide
  deriving DecidableEq, Repr

namespace Binary64

/-- The word of infinity; every larger word is no number. -/
def infinityWord : Nat := 0x7FF * 2 ^ 52

/-- The quotient `n / d`, rounded half to even. -/
def roundHalfEven (n d : Nat) : Nat :=
  let q := n / d
  let r := n % d
  if 2 * r < d ∨ (2 * r = d ∧ q % 2 = 0) then q else q + 1

/-- The word nearest to `n / d` times 2⁻¹⁰⁷⁴, infinity when no finite word is near enough. The
quotient is rounded to 53 bits, and every bit dropped raises the exponent by one. -/
def nearest (n d : Nat) : Nat :=
  let dropped := Nat.log2 (n / d) - 52
  min (dropped * 2 ^ 52 + roundHalfEven n (d * 2 ^ dropped)) infinityWord

/-- A finite word in units of 2⁻¹⁰⁷⁴. -/
def units (word : Nat) : Nat :=
  let exponent := word / 2 ^ 52
  let fraction := word % 2 ^ 52
  if exponent = 0 then fraction else (2 ^ 52 + fraction) * 2 ^ (exponent - 1)

theorem nearest_lt (n d : Nat) : nearest n d < 2 ^ 63 :=
  Nat.lt_of_le_of_lt (Nat.min_le_right _ _) (by decide)

/-- One, in units of 2⁻¹⁰⁷⁴. -/
def one : Nat := 2 ^ 1074

def infinity (negative : Bool) : Binary64 where
  negative := negative
  magnitude := infinityWord

/-- The number that stands for no number: quiet, with nothing else in its fraction. -/
def nan (negative : Bool) : Binary64 where
  negative := negative
  magnitude := infinityWord + 2 ^ 51

/-- The number nearest to `n / d` times 2⁻¹⁰⁷⁴, with that sign. -/
def ofUnits (negative : Bool) (n d : Nat) : Binary64 where
  negative := negative
  magnitude := nearest n d
  magnitude_lt := nearest_lt n d

/-- The number nearest to `n / d`, with that sign. -/
def ofFraction (negative : Bool) (n d : Nat) : Binary64 :=
  ofUnits negative (n * one) d

/-- The number nearest to `n`. -/
def ofNat (n : Nat) : Binary64 :=
  ofFraction false n 1

def zero : Binary64 := ofNat 0

def isNan (x : Binary64) : Bool := infinityWord < x.magnitude

def isInfinite (x : Binary64) : Bool := x.magnitude == infinityWord

def isZero (x : Binary64) : Bool := x.magnitude == 0

/-- The number with the other sign. -/
def neg (x : Binary64) : Binary64 :=
  { x with negative := !x.negative }

/-- The product, rounded; zero times infinity is no number. -/
def mul (x y : Binary64) : Binary64 :=
  let negative := x.negative != y.negative
  if x.isNan then x
  else if y.isNan then y
  else if x.isInfinite then if y.isZero then nan true else infinity negative
  else if y.isInfinite then if x.isZero then nan true else infinity negative
  else ofUnits negative (units x.magnitude * units y.magnitude) one

/-- A finite number in units of 2⁻¹⁰⁷⁴, with its sign. -/
def signedUnits (x : Binary64) : Int :=
  if x.negative then -(units x.magnitude : Int) else units x.magnitude

/-- The sum, rounded; infinities of opposite sign have none, and a zero sum is negative only when
both summands are. -/
def add (x y : Binary64) : Binary64 :=
  if x.isNan then x
  else if y.isNan then y
  else if x.isInfinite then if y.isInfinite && x.negative != y.negative then nan true else x
  else if y.isInfinite then y
  else
    let sum := signedUnits x + signedUnits y
    if sum = 0 then ofUnits (x.negative && y.negative) 0 1
    else ofUnits (sum < 0) sum.natAbs 1

/-- The 64-bit word of a number, the sign in the highest bit. -/
def bits (x : Binary64) : Nat :=
  (if x.negative then 2 ^ 63 else 0) + x.magnitude

/-- The number cut off toward zero, in units of one; the ends of the range for what lies beyond
them, and zero for what is no number. -/
def truncate (low high : Int) (x : Binary64) : Int :=
  if x.isNan then 0
  else if x.isInfinite then if x.negative then low else high
  else
    let whole : Int := (units x.magnitude / one : Nat)
    max low (min high (if x.negative then -whole else whole))

end Binary64

end ImageScoring
