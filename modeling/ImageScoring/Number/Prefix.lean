import ImageScoring.Bytes
import ImageScoring.Number.Binary64
import ImageScoring.Text.Blank

/-!
# The number at the front of a text

A result is text of which only the longest number at the front counts. `Prefix.scan?` finds that
number and its length: an optional sign, then a hexadecimal number after `0x`, one of the words
`infinity`, `inf` and `nan` in any case, or a decimal number. `Prefix.value` skips blanks, takes
the number and gives zero for a text without one.

A decimal number is the binary64 number nearest to it. A hexadecimal one is built up digit by
digit in binary64 arithmetic, so long mantissas round at every step, and scaled at the end by a
power of two that is itself a binary64 number.
-/

namespace ImageScoring.Prefix

/-- A number at the front of a byte string: its value, and how many octets it takes. -/
structure Scan where
  value : Binary64
  length : Nat
  deriving DecidableEq, Repr

def isDigit (b : UInt8) : Bool :=
  0x30 ≤ b && b ≤ 0x39

/-- The value of a decimal digit. -/
def digitValue (b : UInt8) : Nat :=
  b.toNat - 0x30

/-- The value of a hexadecimal digit in either case. -/
def hexDigit? (b : UInt8) : Option Nat :=
  if isDigit b then some (digitValue b)
  else if 0x61 ≤ b && b ≤ 0x66 then some (b.toNat - 0x57)
  else if 0x41 ≤ b && b ≤ 0x46 then some (b.toNat - 0x37)
  else none

/-- The lower case of an ASCII letter. -/
def lowerByte (b : UInt8) : UInt8 :=
  if 0x41 ≤ b && b ≤ 0x5A then b + 0x20 else b

/-- Whether the lower-case `word` stands at the front, in any case. -/
def hasWord (word bs : Bytes) : Bool :=
  (bs.take word.length).map lowerByte == word

/-- How many digits are evaluated one after the other; longer sequences are cut in two. -/
def runLength : Nat := 64

/-- The number with one more digit behind it. -/
def withDigit (n : Nat) (b : UInt8) : Nat :=
  10 * n + digitValue b

/-- The value of a sequence of decimal digits. -/
def digitsValue (digits : Bytes) : Nat :=
  if digits.length ≤ runLength then digits.foldl withDigit 0
  else
    let half := digits.length / 2
    digitsValue (digits.take half) * 10 ^ (digits.length - half) + digitsValue (digits.drop half)
termination_by digits.length
decreasing_by all_goals simp only [runLength, List.length_take, List.length_drop] at *; omega

theorem foldl_withDigit (n : Nat) (digits : Bytes) :
    digits.foldl withDigit n = n * 10 ^ digits.length + digits.foldl withDigit 0 := by
  induction digits generalizing n with
  | nil => simp
  | cons b digits ih =>
    rw [List.foldl_cons, List.foldl_cons, ih (withDigit n b), ih (withDigit 0 b), List.length_cons,
      Nat.pow_succ]
    simp only [withDigit, Nat.add_mul, Nat.mul_zero, Nat.zero_add, ← Nat.add_assoc]
    rw [Nat.mul_comm 10 n, Nat.mul_assoc, Nat.mul_comm 10]

/-- Cutting in two changes nothing: digits are evaluated from the first one on. -/
theorem digitsValue_eq_foldl (digits : Bytes) :
    digitsValue digits = digits.foldl withDigit 0 := by
  fun_induction digitsValue digits with
  | case1 => rfl
  | case2 digits _ half ih₁ ih₂ =>
    rw [ih₁, ih₂]
    conv => rhs; rw [← List.take_append_drop half digits, List.foldl_append, foldl_withDigit]
    rw [List.length_drop]

/-- An exponent after its letter: sign, digits, and the length of both. -/
structure Exponent where
  negative : Bool
  digits : Bytes
  length : Nat
  deriving DecidableEq, Repr

/-- The exponent at the front of `bs`, introduced by `letter` in either case; without a digit
there is none, and the letter belongs to what follows the number. -/
def exponent? (letter : UInt8) : Bytes → Option Exponent
  | [] => none
  | b :: rest =>
    if lowerByte b != letter then none
    else
      let (negative, signLength) := match rest with
        | 0x2D :: _ => (true, 1)
        | 0x2B :: _ => (false, 1)
        | _ => (false, 0)
      let digits := (rest.drop signLength).takeWhile isDigit
      if digits.isEmpty then none
      else some ⟨negative, digits, 1 + signLength + digits.length⟩

/-- The digits after a point at the front of `bs`; `none` without a point. -/
def fraction? {α : Type} (digits : Bytes → α) : Bytes → Option α
  | 0x2E :: rest => some (digits rest)
  | _ => none

/-! ### Decimal numbers -/

/-- A number with more digits before the point than this exceeds every finite number. -/
def decimalHigh : Int := 310

/-- A number whose first digit stands further behind the point than this rounds to zero. -/
def decimalLow : Int := -330

/-- The binary64 number nearest to `digits` · 10 ^ `shift`, where leading zeros do not count. -/
def decimalValue (digits : Bytes) (shift : Int) : Binary64 :=
  let digits := digits.dropWhile (· == 0x30)
  let places := digits.length + shift
  if digits.isEmpty then .zero
  else if decimalHigh < places then .infinity false
  else if places < decimalLow then .zero
  else if 0 ≤ shift then .ofFraction false (digitsValue digits * 10 ^ shift.toNat) 1
  else .ofFraction false (digitsValue digits) (10 ^ (-shift).toNat)

/-- An exponent that has reached this takes no more digits. -/
def exponentLimit : Nat := 2 ^ 16

/-- The value of an exponent's digits, those passed over that follow when the limit is reached. -/
def exponentValue (digits : Bytes) : Nat :=
  digits.foldl (fun n b => if n < exponentLimit then withDigit n b else n) 0

/-- The decimal number at the front: digits with an optional point among them, and an optional
exponent. -/
def decimal? (bs : Bytes) : Option Scan :=
  let whole := bs.takeWhile isDigit
  let rest := bs.drop whole.length
  let (fraction, pointLength) := match fraction? (·.takeWhile isDigit) rest with
    | some digits => (digits, 1)
    | none => ([], 0)
  let length := whole.length + pointLength + fraction.length
  if whole.length + fraction.length = 0 then none
  else
    let shift : Int := -(fraction.length : Int)
    match exponent? 0x65 (bs.drop length) with
    | none => some ⟨decimalValue (whole ++ fraction) shift, length⟩
    | some e =>
      let power : Int := exponentValue e.digits
      let shift := shift + if e.negative then -power else power
      some ⟨decimalValue (whole ++ fraction) shift, length + e.length⟩

/-! ### Hexadecimal numbers -/

/-- Sixteen and its inverse. -/
def sixteen : Binary64 := .ofNat 16

def sixteenth : Binary64 := .ofFraction false 1 16

/-- The digits before the point, most significant first: each is added to sixteen times the value
before it. -/
def hexWhole (digits : List Nat) : Binary64 :=
  digits.foldl (fun value d => (value.mul sixteen).add (.ofNat d)) .zero

/-- The digits after the point: each is scaled and added, and the scale goes down. -/
def hexFraction (whole : Binary64) (digits : List Nat) : Binary64 :=
  (digits.foldl
    (fun (value, scale) d => (value.add ((Binary64.ofNat d).mul scale), scale.mul sixteenth))
    (whole, sixteenth)).1

/-- The largest exponent that is told apart from those beyond it. -/
def hexExponentLimit : Nat := 2 ^ 31 - 1

/-- The value of an exponent's digits, no more than `hexExponentLimit`. -/
def saturatedValue (digits : Bytes) : Nat :=
  digits.foldl
    (fun n b => min (min (10 * n) hexExponentLimit + digitValue b) hexExponentLimit) 0

/-- The power of two that a hexadecimal number is scaled by. A negative power is the inverse of
the positive one, so it is zero where that one is infinite. -/
def powerOfTwo (negative : Bool) (e : Nat) : Binary64 :=
  if 1024 ≤ e then if negative then .zero else .infinity false
  else if negative then .ofFraction false 1 (2 ^ e)
  else .ofNat (2 ^ e)

/-- The values of the hexadecimal digits at the front. -/
def hexDigits (bs : Bytes) : List Nat :=
  (bs.takeWhile fun b => (hexDigit? b).isSome).filterMap hexDigit?

/-- The hexadecimal number at the front, its `0x` already taken. -/
def hex? (bs : Bytes) : Option Scan :=
  let whole := hexDigits bs
  let rest := bs.drop whole.length
  let (fraction, pointLength) := match fraction? hexDigits rest with
    | some digits => (digits, 1)
    | none => ([], 0)
  let length := whole.length + pointLength + fraction.length
  if whole.length + fraction.length = 0 then none
  else
    let mantissa := hexFraction (hexWhole whole) fraction
    match exponent? 0x70 (bs.drop length) with
    | none => some ⟨mantissa, length⟩
    | some e =>
      some ⟨mantissa.mul (powerOfTwo e.negative (saturatedValue e.digits)), length + e.length⟩

/-! ### All numbers -/

/-- The number at the front, its sign already taken. A `0x` without a digit after it is the
number zero, one octet long. -/
def magnitude? (bs : Bytes) : Option Scan :=
  if hasWord (ascii "0x") bs then
    match hex? (bs.drop 2) with
    | some scan => some ⟨scan.value, scan.length + 2⟩
    | none => some ⟨.zero, 1⟩
  else if hasWord (ascii "infinity") bs then some ⟨.infinity false, 8⟩
  else if hasWord (ascii "inf") bs then some ⟨.infinity false, 3⟩
  else if hasWord (ascii "nan") bs then some ⟨.nan false, 3⟩
  else decimal? bs

/-- The longest number at the front of a byte string. -/
def scan? (bs : Bytes) : Option Scan :=
  match bs with
  | 0x2D :: rest => (magnitude? rest).map fun s => ⟨s.value.neg, s.length + 1⟩
  | 0x2B :: rest => (magnitude? rest).map fun s => ⟨s.value, s.length + 1⟩
  | _ => magnitude? bs

/-- The value of a result: the number behind the blanks at its front, zero without one. -/
def value (bs : Bytes) : Binary64 :=
  match scan? (bs.dropWhile Text.isAsciiBlank) with
  | some scan => scan.value
  | none => .zero

end ImageScoring.Prefix
