import ImageScoring.Bytes

/-!
# UTF-8

`encode` writes characters, `first?` reads one character and says how much of the input is at
fault when there is none, and `decode?` and `decodeLossy` read a whole byte string, the first
refusing it at its first fault, the second writing U+FFFD for every fault.

A fault is as long as the part of the input that could still have begun a character: the octet
that rules the character out is not part of it.
-/

namespace ImageScoring.Utf8

/-- The octets of one character. -/
def encodeChar (c : Char) : Bytes :=
  let n := c.toNat
  if n < 0x80 then [UInt8.ofNat n]
  else if n < 0x800 then
    [UInt8.ofNat (0xC0 + n / 0x40), UInt8.ofNat (0x80 + n % 0x40)]
  else if n < 0x10000 then
    [UInt8.ofNat (0xE0 + n / 0x1000), UInt8.ofNat (0x80 + n / 0x40 % 0x40),
      UInt8.ofNat (0x80 + n % 0x40)]
  else
    [UInt8.ofNat (0xF0 + n / 0x40000), UInt8.ofNat (0x80 + n / 0x1000 % 0x40),
      UInt8.ofNat (0x80 + n / 0x40 % 0x40), UInt8.ofNat (0x80 + n % 0x40)]

/-- The octets of a sequence of characters. -/
def encode (cs : List Char) : Bytes :=
  cs.flatMap encodeChar

/-- The octets of a text. -/
def ofText (text : String) : Bytes :=
  encode text.toList

/-- The octets that continue a character. -/
def isTail (b : UInt8) : Bool :=
  0x80 ≤ b && b ≤ 0xBF

/-- What stands at the front of a byte string. -/
inductive First where
  /-- A character, and how many octets it takes. -/
  | char (c : Char) (width : Nat)
  /-- That many octets which begin no character. -/
  | invalid (width : Nat)
  /-- A character that the input cuts short; it takes all octets that are left. -/
  | incomplete
  deriving DecidableEq, Repr

/-- How many octets a character with this first octet takes, and between which octets its second
one lies; `none` for an octet that begins no character of more than one octet. -/
def lead? (b : UInt8) : Option (Nat × UInt8 × UInt8) :=
  if 0xC2 ≤ b && b ≤ 0xDF then some (2, 0x80, 0xBF)
  else if b == 0xE0 then some (3, 0xA0, 0xBF)
  else if b == 0xED then some (3, 0x80, 0x9F)
  else if 0xE1 ≤ b && b ≤ 0xEF then some (3, 0x80, 0xBF)
  else if b == 0xF0 then some (4, 0x90, 0xBF)
  else if 0xF1 ≤ b && b ≤ 0xF3 then some (4, 0x80, 0xBF)
  else if b == 0xF4 then some (4, 0x80, 0x8F)
  else none

/-- The six value bits of a continuation octet. -/
def tailBits (b : UInt8) : Nat :=
  b.toNat % 0x40

/-- The character at the front of a byte string, or the fault there; `none` when it is empty. -/
def first? : Bytes → Option First
  | [] => none
  | a :: rest =>
    if a < 0x80 then some (.char (Char.ofNat a.toNat) 1)
    else match lead? a with
      | none => some (.invalid 1)
      | some (width, low, high) =>
        match rest with
        | [] => some .incomplete
        | b :: rest =>
          if !(low ≤ b && b ≤ high) then some (.invalid 1)
          else if width == 2 then
            some (.char (Char.ofNat (a.toNat % 0x20 * 0x40 + tailBits b)) 2)
          else match rest with
            | [] => some .incomplete
            | c :: rest =>
              if !isTail c then some (.invalid 2)
              else if width == 3 then
                some (.char
                  (Char.ofNat ((a.toNat % 0x10 * 0x40 + tailBits b) * 0x40 + tailBits c)) 3)
              else match rest with
                | [] => some .incomplete
                | d :: _ =>
                  if !isTail d then some (.invalid 3)
                  else
                    some (.char (Char.ofNat
                      (((a.toNat % 8 * 0x40 + tailBits b) * 0x40 + tailBits c) * 0x40
                        + tailBits d)) 4)

/-- Why a byte string is no UTF-8: what is wrong, and how many octets are right before it. -/
inductive Fault where
  | invalid (width index : Nat)
  | incomplete (index : Nat)
  deriving DecidableEq, Repr

/-- The wording of a fault. -/
def Fault.message : Fault → String
  | .invalid width index =>
    "invalid utf-8 sequence of " ++ toString width ++ " bytes from index " ++ toString index
  | .incomplete index => "incomplete utf-8 byte sequence from index " ++ toString index

/-- Reading a whole byte string: `index` octets have been read and gave the characters `acc`, last
one first; `skip` octets of the current character are still to be passed over. -/
def decodeFrom? (index : Nat) : (skip : Nat) → (acc : List Char) → Bytes → Except Fault (List Char)
  | _, acc, [] => .ok acc.reverse
  | skip + 1, acc, _ :: rest => decodeFrom? (index + 1) skip acc rest
  | 0, acc, b :: rest =>
    match first? (b :: rest) with
    | some (.char c width) => decodeFrom? (index + 1) (width - 1) (c :: acc) rest
    | some (.invalid width) => .error (.invalid width index)
    | _ => .error (.incomplete index)

/-- The characters of a byte string, or its first fault. -/
def decode? (bs : Bytes) : Except Fault (List Char) :=
  decodeFrom? 0 0 [] bs

/-- The replacement character, U+FFFD. -/
def replacement : Char := Char.ofNat 0xFFFD

/-- As `decodeFrom?`, but a fault gives one replacement character and reading goes on behind it. -/
def decodeLossyFrom : (skip : Nat) → (acc : List Char) → Bytes → List Char
  | _, acc, [] => acc.reverse
  | skip + 1, acc, _ :: rest => decodeLossyFrom skip acc rest
  | 0, acc, b :: rest =>
    match first? (b :: rest) with
    | some (.char c width) => decodeLossyFrom (width - 1) (c :: acc) rest
    | some (.invalid width) => decodeLossyFrom (width - 1) (replacement :: acc) rest
    | _ => (replacement :: acc).reverse

/-- The characters of a byte string, every fault read as U+FFFD. -/
def decodeLossy (bs : Bytes) : List Char :=
  decodeLossyFrom 0 [] bs

/-- The text of a byte string, or its first fault. -/
def toText? (bs : Bytes) : Except Fault String :=
  (decode? bs).map String.ofList

/-- The text of a byte string, every fault read as U+FFFD. -/
def toTextLossy (bs : Bytes) : String :=
  String.ofList (decodeLossy bs)

end ImageScoring.Utf8
