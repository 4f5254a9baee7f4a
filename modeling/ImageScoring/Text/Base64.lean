import ImageScoring.Bytes

/-!
# Base64

The standard alphabet, with padding. `decode?` accepts exactly what `encode` writes: groups of
four symbols, the last one filled up with `=`, no bits left over. A fault names the first place
where the input differs from that.
-/

namespace ImageScoring.Base64

/-- The padding symbol. -/
def pad : UInt8 := 0x3D

/-- The symbol of a six-bit value. -/
def symbol (n : Nat) : UInt8 :=
  if n < 26 then UInt8.ofNat (0x41 + n)
  else if n < 52 then UInt8.ofNat (0x61 + (n - 26))
  else if n < 62 then UInt8.ofNat (0x30 + (n - 52))
  else if n = 62 then 0x2B
  else 0x2F

/-- The six-bit value of a symbol. -/
def value? (b : UInt8) : Option Nat :=
  if 0x41 ≤ b && b ≤ 0x5A then some (b.toNat - 0x41)
  else if 0x61 ≤ b && b ≤ 0x7A then some (b.toNat - 0x61 + 26)
  else if 0x30 ≤ b && b ≤ 0x39 then some (b.toNat - 0x30 + 52)
  else if b == 0x2B then some 62
  else if b == 0x2F then some 63
  else none

/-- Why an input is no base64. -/
inductive Fault where
  | invalidByte (index : Nat) (byte : UInt8)
  | invalidLength (length : Nat)
  | invalidLastSymbol (index : Nat) (byte : UInt8)
  | invalidPadding
  deriving DecidableEq, Repr

/-- The wording of a fault. -/
def Fault.message : Fault → String
  | .invalidByte index byte =>
    "Invalid symbol " ++ toString byte.toNat ++ ", offset " ++ toString index ++ "."
  | .invalidLength length => "Invalid input length: " ++ toString length
  | .invalidLastSymbol index byte =>
    "Invalid last symbol " ++ toString byte.toNat ++ ", offset " ++ toString index ++ "."
  | .invalidPadding => "Invalid padding"

/-- The base64 of a byte string. -/
def encode : Bytes → Bytes
  | [] => []
  | [a] => [symbol (a.toNat / 4), symbol (a.toNat % 4 * 16), pad, pad]
  | [a, b] =>
    [symbol (a.toNat / 4), symbol (a.toNat % 4 * 16 + b.toNat / 16), symbol (b.toNat % 16 * 4), pad]
  | a :: b :: c :: rest =>
    symbol (a.toNat / 4) :: symbol (a.toNat % 4 * 16 + b.toNat / 16) ::
      symbol (b.toNat % 16 * 4 + c.toNat / 64) :: symbol (c.toNat % 64) :: encode rest

/-- The values of symbols that all have to be in the alphabet; `index` is the place of the
first. -/
def values? (index : Nat) : Bytes → Except Fault (List Nat)
  | [] => .ok []
  | b :: rest =>
    match value? b with
    | none => .error (.invalidByte index b)
    | some v => (values? (index + 1) rest).map (v :: ·)

/-- The octets of whole groups of four values. -/
def groups : List Nat → Bytes
  | a :: b :: c :: d :: rest =>
    UInt8.ofNat (a * 4 + b / 16) :: UInt8.ofNat (b % 16 * 16 + c / 4) ::
      UInt8.ofNat (c % 4 * 64 + d) :: groups rest
  | _ => []

/-- How many symbols stand before the last group, which alone may hold padding. -/
def bodyLength (length : Nat) : Nat :=
  if length % 4 = 0 then length - 4 else length - length % 4

/-- The values of the last group's symbols and how many padding symbols follow them; `index` is
the place of the group, `place` that of the symbol in it, `padding` the place of the first padding
symbol and their number. -/
def lastGroup? (index : Nat) (place : Nat) (padding : Option (Nat × Nat)) :
    Bytes → Except Fault (List (Nat × UInt8) × Nat)
  | [] => .ok ([], (padding.map (·.2)).getD 0)
  | b :: rest =>
    if b = pad then
      if place < 2 then .error (.invalidByte (index + place) b)
      else
        let padding := match padding with
          | none => (place, 1)
          | some (first, count) => (first, count + 1)
        lastGroup? index (place + 1) (some padding) rest
    else
      match padding, value? b with
      | some (first, _), _ => .error (.invalidByte (index + first) pad)
      | none, none => .error (.invalidByte (index + place) b)
      | none, some v =>
        (lastGroup? index (place + 1) none rest).map fun (values, count) =>
          ((v, b) :: values, count)

/-- The octets of the last group, whose symbols start at `index`. -/
def lastOctets? (index : Nat) (group : List (Nat × UInt8)) (padding : Nat) : Except Fault Bytes :=
  if group.length < 2 then .error (.invalidLength (index + group.length))
  else if (group.length + padding) % 4 ≠ 0 then .error .invalidPadding
  else match group with
    | [(a, _), (b, last)] =>
      if b % 16 ≠ 0 then .error (.invalidLastSymbol (index + 1) last)
      else .ok [UInt8.ofNat (a * 4 + b / 16)]
    | [(a, _), (b, _), (c, last)] =>
      if c % 4 ≠ 0 then .error (.invalidLastSymbol (index + 2) last)
      else .ok [UInt8.ofNat (a * 4 + b / 16), UInt8.ofNat (b % 16 * 16 + c / 4)]
    | group => .ok (groups (group.map (·.1)))

/-- A last symbol that stands alone in its group and is not in the alphabet is told before all
else. -/
def strayLast? (bs : Bytes) : Option Fault :=
  if bs.length % 4 = 1 then
    match bs.getLast? with
    | some b => if b ≠ pad ∧ value? b = none then some (.invalidByte (bs.length - 1) b) else none
    | none => none
  else none

/-- The octets that an input stands for, or its first fault. -/
def decode? (bs : Bytes) : Except Fault Bytes :=
  match strayLast? bs with
  | some fault => .error fault
  | none =>
    let index := bodyLength bs.length
    match values? 0 (bs.take index) with
    | .error fault => .error fault
    | .ok body =>
      match bs.drop index with
      | [] => .ok []
      | last =>
        match lastGroup? index 0 none last with
        | .error fault => .error fault
        | .ok (group, padding) =>
          (lastOctets? index group padding).map (groups body ++ ·)

end ImageScoring.Base64
