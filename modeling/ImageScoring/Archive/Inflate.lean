import ImageScoring.Bytes

/-!
# Inflating

A deflated stream is a sequence of blocks: stored octets, or literals and references to what was
written before, under a prefix code that is fixed or told at the front of the block. Bits are
taken from the low end of each octet. A stream that breaks the rules, or stops before the end of
its last block, gives nothing; what stands behind that end does not count.
-/

namespace ImageScoring.Inflate

-- Sums start from the literal zero.
attribute [local instance (high)] Zero.ofOfNat0

/-- The bits that are left, in the order in which they are taken. -/
abbrev Bits := List Bool

/-- The bits of an octet, lowest first. -/
def octetBits (b : UInt8) : Bits :=
  (List.range 8).map b.toNat.testBit

/-- A number of `width` bits, lowest first, and the bits behind it. -/
def number? : (width : Nat) → Bits → Option (Nat × Bits)
  | 0, bits => some (0, bits)
  | _ + 1, [] => none
  | width + 1, b :: bits => do
    let (n, bits) ← number? width bits
    return (b.toNat + 2 * n, bits)

/-! ### Prefix codes -/

/-- The longest code word. -/
def longestWord : Nat := 15

/-- A canonical prefix code: for every length from one on, the symbols whose words have it. Words
of one length follow each other, and a longer word follows all shorter ones. -/
abbrev Code := List (Array Nat)

/-- How much of the space of words a length takes, in units of the longest word. -/
def share (length : Nat) : Nat :=
  if length = 0 then 0 else 2 ^ (longestWord - length)

/-- Whether words of those lengths fill the space of words. -/
def isFull (lengths : List Nat) : Bool :=
  (lengths.map share).sum = 2 ^ longestWord

/-- Whether a code of those lengths may be used for literals or distances: it fills the space of
words, or has no word but a single one of one bit. -/
def isUsable (lengths : List Nat) : Bool :=
  isFull lengths || lengths.sum ≤ 1

/-- The code in which each symbol has a word of the given length, none for zero. -/
def code (lengths : List Nat) : Code :=
  (List.range longestWord).map fun l =>
    ((lengths.zipIdx.filter (·.1 = l + 1)).map (·.2)).toArray

/-- The symbol at the front of the bits: `word` is what has been taken, `first` the first word of
the length at hand. -/
def symbolFrom? (word first : Nat) : Code → Bits → Option (Nat × Bits)
  | [], _ => none
  | _ :: _, [] => none
  | level :: levels, b :: bits =>
    let word := word + b.toNat
    match level[word - first]? with
    | some symbol => some (symbol, bits)
    | none => symbolFrom? (2 * word) (2 * (first + level.size)) levels bits

/-- The symbol at the front of the bits. -/
def symbol? (c : Code) (bits : Bits) : Option (Nat × Bits) :=
  symbolFrom? 0 0 c bits

/-! ### Literals and references -/

/-- For every length symbol the least length and how many bits are added to it. -/
def lengthTable : List (Nat × Nat) :=
  [(3, 0), (4, 0), (5, 0), (6, 0), (7, 0), (8, 0), (9, 0), (10, 0), (11, 1), (13, 1), (15, 1),
    (17, 1), (19, 2), (23, 2), (27, 2), (31, 2), (35, 3), (43, 3), (51, 3), (59, 3), (67, 4),
    (83, 4), (99, 4), (115, 4), (131, 5), (163, 5), (195, 5), (227, 5), (258, 0)]

/-- For every distance symbol the least distance and how many bits are added to it. -/
def distanceTable : List (Nat × Nat) :=
  [(1, 0), (2, 0), (3, 0), (4, 0), (5, 1), (7, 1), (9, 2), (13, 2), (17, 3), (25, 3), (33, 4),
    (49, 4), (65, 5), (97, 5), (129, 6), (193, 6), (257, 7), (385, 7), (513, 8), (769, 8),
    (1025, 9), (1537, 9), (2049, 10), (3073, 10), (4097, 11), (6145, 11), (8193, 12),
    (12289, 12), (16385, 13), (24577, 13)]

/-- The symbol that ends a block. -/
def endOfBlock : Nat := 256

/-- The value that a symbol and the bits behind it stand for. -/
def extended? (table : List (Nat × Nat)) (symbol : Nat) (bits : Bits) : Option (Nat × Bits) := do
  let (least, width) ← table[symbol]?
  let (more, bits) ← number? width bits
  return (least + more, bits)

/-- The octet `distance` back from the end of the output; before the output there are zeros. -/
def octetBack (distance : Nat) (out : Array UInt8) : UInt8 :=
  if distance ≤ out.size then out.getD (out.size - distance) 0 else 0

/-- The output with `count` octets repeated from `distance` back. -/
def repeated (distance : Nat) : (count : Nat) → Array UInt8 → Array UInt8
  | 0, out => out
  | count + 1, out => repeated distance count (out.push (octetBack distance out))

/-- What has been written, and the bits left. -/
abbrev Progress := Array UInt8 × Bits

/-- The length and the distance of a reference whose first symbol has been taken. -/
def reference? (distances : Code) (first : Nat) (bits : Bits) : Option (Nat × Nat × Bits) := do
  let (length, bits) ← extended? lengthTable (first - (endOfBlock + 1)) bits
  let (second, bits) ← symbol? distances bits
  let (distance, bits) ← extended? distanceTable second bits
  return (length, distance, bits)

/-- The rest of a block; `fuel` bounds how many symbols it has. -/
def body? (literals distances : Code) : (fuel : Nat) → Array UInt8 → Bits → Option Progress
  | 0, _, _ => none
  | fuel + 1, out, bits =>
    match symbol? literals bits with
    | none => none
    | some (first, bits) =>
      if first < endOfBlock then body? literals distances fuel (out.push (UInt8.ofNat first)) bits
      else if first = endOfBlock then some (out, bits)
      else
        match reference? distances first bits with
        | none => none
        | some (length, distance, bits) =>
          body? literals distances fuel (repeated distance length out) bits

/-! ### Blocks -/

/-- `count` octets taken as they are. -/
def octets? : (count : Nat) → Array UInt8 → Bits → Option Progress
  | 0, out, bits => some (out, bits)
  | count + 1, out, bits =>
    match number? 8 bits with
    | some (n, bits) => octets? count (out.push (UInt8.ofNat n)) bits
    | none => none

/-- A stored block: from the next octet on, its length twice, the second time inverted. -/
def stored? (out : Array UInt8) (bits : Bits) : Option Progress := do
  let (length, bits) ← number? 16 (bits.drop (bits.length % 8))
  let (inverse, bits) ← number? 16 bits
  guard (length + inverse = 0xFFFF)
  octets? length out bits

/-- The word lengths of the fixed code for literals and lengths. -/
def fixedLengths : List Nat :=
  List.replicate 144 8 ++ List.replicate 112 9 ++ List.replicate 24 7 ++ List.replicate 8 8

/-- The order in which the word lengths of the code for word lengths are told. -/
def lengthOrder : List Nat :=
  [16, 17, 18, 0, 8, 7, 9, 6, 10, 5, 11, 4, 12, 3, 13, 2, 14, 1, 15]

/-- `count` numbers of three bits. -/
def triples? : (count : Nat) → Bits → Option (List Nat × Bits)
  | 0, bits => some ([], bits)
  | count + 1, bits => do
    let (n, bits) ← number? 3 bits
    let (ns, bits) ← triples? count bits
    return (n :: ns, bits)

/-- What a symbol of the code for word lengths adds to the lengths `acc`, last one first: a length,
or a repetition of the last one or of zero. -/
def lengthRun? (acc : List Nat) (symbol : Nat) (bits : Bits) : Option (List Nat × Bits) :=
  let run (value least width : Nat) : Option (List Nat × Bits) := do
    let (more, bits) ← number? width bits
    return (List.replicate (least + more) value, bits)
  if symbol < 16 then some ([symbol], bits)
  else if symbol = 16 then
    match acc with
    | [] => none
    | last :: _ => run last 3 2
  else if symbol = 17 then run 0 3 3
  else run 0 11 7

/-- Exactly `count` word lengths behind `acc`, last one first; `fuel` bounds the symbols. -/
def wordLengths? (c : Code) (count : Nat) : (fuel : Nat) → (acc : List Nat) → Bits →
    Option (List Nat × Bits)
  | 0, _, _ => none
  | fuel + 1, acc, bits =>
    if acc.length = count then some (acc.reverse, bits)
    else if count < acc.length then none
    else do
      let (next, bits) ← symbol? c bits
      let (more, bits) ← lengthRun? acc next bits
      wordLengths? c count fuel (more ++ acc) bits

/-- The most symbols for literals and lengths, and for distances, that a block may tell of. -/
def symbolLimits : Nat × Nat := (286, 30)

/-- The two codes that are told at the front of a block. -/
def toldCodes? (bits : Bits) : Option (Code × Code × Bits) := do
  let (literals, bits) ← number? 5 bits
  let (distances, bits) ← number? 5 bits
  let (told, bits) ← number? 4 bits
  let literals := literals + 257
  let distances := distances + 1
  guard (literals ≤ symbolLimits.1 ∧ distances ≤ symbolLimits.2)
  let (ns, bits) ← triples? (told + 4) bits
  let lengths := (List.range 19).map fun s => ((lengthOrder.zip ns).lookup s).getD 0
  guard (isFull lengths)
  let count := literals + distances
  let (all, bits) ← wordLengths? (code lengths) count (count + 1) [] bits
  guard (isUsable (all.take literals) ∧ isUsable (all.drop literals))
  return (code (all.take literals), code (all.drop literals), bits)

/-- A block of that kind. -/
def block? (kind : Nat) (out : Array UInt8) (bits : Bits) : Option Progress :=
  if kind = 0 then stored? out bits
  else if kind = 1 then body? (code fixedLengths) (code (List.replicate 32 5)) bits.length out bits
  else if kind = 2 then do
    let (literals, distances, bits) ← toldCodes? bits
    body? literals distances bits.length out bits
  else none

/-- All blocks up to the last one; `fuel` bounds how many there are. -/
def blocks? : (fuel : Nat) → Array UInt8 → Bits → Option Progress
  | 0, _, _ => none
  | fuel + 1, out, bits =>
    match number? 3 bits with
    | none => none
    | some (header, bits) =>
      match block? (header / 2) out bits with
      | none => none
      | some (out, bits) => if header % 2 = 1 then some (out, bits) else blocks? fuel out bits

/-- What a deflated stream holds; `none` if it breaks the rules or stops early. -/
def inflate? (bs : Bytes) : Option Bytes :=
  let bits := bs.flatMap octetBits
  (blocks? bits.length #[] bits).map (·.1.toList)

end ImageScoring.Inflate
