import ImageScoring.Bytes
import ImageScoring.Files.Fault

/-!
# Records of zip archives

A record begins with a signature of four octets and holds numbers at fixed offsets, least
significant octet first. This module says how records are found and read, and why reading or
unpacking an archive fails.
-/

namespace ImageScoring.Zip

/-- Why an archive cannot be read or unpacked. -/
inductive Fault where
  | malformed (what : String)
  | unsupported (what : String)
  /-- The data of a member are not those that were packed. -/
  | damaged
  | disk (fault : FileFault)
  deriving DecidableEq, Repr

/-- The wording of a fault. -/
def Fault.message : Fault → String
  | .malformed what => "invalid Zip archive: " ++ what
  | .unsupported what => "unsupported Zip archive: " ++ what
  | .damaged => "i/o error: Invalid checksum"
  | .disk fault => "i/o error: " ++ fault.message

/-- The number in `width` octets at an offset. -/
def number (width : Nat) (bs : Bytes) (offset : Nat) : Nat :=
  Bytes.ofLittleEndian ((bs.drop offset).take width)

/-- What no number of eight octets reaches. -/
def wideLimit : Nat := 2 ^ 64

def endSignature : Bytes := [0x50, 0x4B, 0x05, 0x06]

def wideEndSignature : Bytes := [0x50, 0x4B, 0x06, 0x06]

def locatorSignature : Bytes := [0x50, 0x4B, 0x06, 0x07]

def directorySignature : Bytes := [0x50, 0x4B, 0x01, 0x02]

def memberSignature : Bytes := [0x50, 0x4B, 0x03, 0x04]

/-- The record at a position, if one with that signature and at least that length is there. -/
def record? (signature : Bytes) (length : Nat) (archive : Bytes) (position : Nat) : Option Bytes :=
  let bs := archive.drop position
  if signature.isPrefixOf bs && length ≤ (bs.take length).length then some bs else none

/-- Where a signature occurs, last place first; `acc` holds the places before `position`. -/
def occurrencesFrom (signature : Bytes) (position : Nat) (acc : List Nat) : Bytes → List Nat
  | [] => acc
  | b :: bs =>
    occurrencesFrom signature (position + 1)
      (if signature.isPrefixOf (b :: bs) then position :: acc else acc) bs

/-- Where a signature occurs, last place first. -/
def occurrences (signature archive : Bytes) : List Nat :=
  occurrencesFrom signature 0 [] archive

/-- The first place from `low` on and before `high` where a signature occurs. -/
def find? (signature archive : Bytes) (low high : Nat) : Option Nat :=
  (occurrences signature ((archive.take high).drop low)).getLast?.map (low + ·)

end ImageScoring.Zip
