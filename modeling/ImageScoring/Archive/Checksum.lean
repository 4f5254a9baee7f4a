import ImageScoring.Bytes

/-!
# Checksums

The cyclic redundancy check of 32 bits with the reflected polynomial `0xEDB88320`, by which an
archive tells whether a member is intact.
-/

namespace ImageScoring.Checksum

/-- The polynomial, lowest power in the highest bit. -/
def polynomial : UInt32 := 0xEDB88320

/-- The remainder after one more bit. -/
def shift (remainder : UInt32) : UInt32 :=
  if remainder &&& 1 = 1 then (remainder >>> 1) ^^^ polynomial else remainder >>> 1

/-- The remainder after one more octet. -/
def step (remainder : UInt32) (b : UInt8) : UInt32 :=
  shift (shift (shift (shift (shift (shift (shift (shift (remainder ^^^ b.toUInt32))))))))

/-- The check of a byte string. -/
def of (bs : Bytes) : Nat :=
  (bs.foldl step 0xFFFFFFFF ^^^ 0xFFFFFFFF).toNat

/-- The check of the nine digits, which the polynomial's tables list. -/
example : of (ascii "123456789") = 0xCBF43926 := by decide +kernel

end ImageScoring.Checksum
