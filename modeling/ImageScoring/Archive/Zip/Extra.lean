import ImageScoring.Archive.Checksum
import ImageScoring.Archive.Zip.Record
import ImageScoring.Text.Utf8

/-!
# Extra fields of zip members

What a directory record tells of a member may be corrected by extra fields behind its name: numbers
too wide for the record, a name or a comment in Unicode, how the data are encrypted. Each field has
a kind and a length, two octets each, and is read as its kind prescribes, whatever its length says.
Where the octets end within a field, that field and all behind it do not count; a field that
contradicts its kind makes the whole record invalid.
-/

namespace ImageScoring.Zip

/-- What is told of a member. -/
structure Told where
  /-- The name in UTF-8, and as the archive holds it. -/
  name : Bytes
  rawName : Bytes
  /-- The comment in UTF-8. -/
  comment : Bytes
  method : Nat
  /-- The data are encrypted in a way that a field of its own describes. -/
  sealed : Bool := false
  /-- The octets of the unpacked data, of the packed data, and before the record in front. -/
  unpacked : Nat
  packed : Nat
  header : Nat
  deriving DecidableEq, Repr

/-- How the reading of extra fields goes on. -/
inductive Onward where
  | at (rest : Bytes)
  /-- The octets end within a field. -/
  | cutOff
  | refused (fault : Fault)
  deriving DecidableEq, Repr

/-- Behind `length` octets, if they are there. -/
def Onward.behind (length : Nat) (bs : Bytes) : Onward :=
  if bs.length < length then .cutOff else .at (bs.drop length)

/-! ### Wide numbers -/

/-- What stands for a number that takes more than four octets. -/
def tooWide : Nat := 0xFFFFFFFF

/-- The numbers of a record, those that are too wide for it, or all, taken from `bs` instead, and
how many octets that took and which are left; `none` where they end too soon. -/
def widen (all : Bool) (taken : Nat) : List Nat → Bytes → List Nat × Option (Nat × Bytes)
  | [], bs => ([], some (taken, bs))
  | n :: ns, bs =>
    if all || n = tooWide then
      if bs.length < 8 then (n :: ns, none)
      else
        let (ns, left) := widen all (taken + 8) ns (bs.drop 8)
        (number 8 bs 0 :: ns, left)
    else
      let (ns, left) := widen all taken ns bs
      (n :: ns, left)

/-- After a field of wide numbers. -/
def Told.widened (t : Told) (length : Nat) (bs : Bytes) : Told × Onward :=
  let (numbers, left) := widen (24 ≤ length) 0 [t.unpacked, t.packed, t.header] bs
  let t := { t with
    unpacked := numbers.getD 0 0, packed := numbers.getD 1 0, header := numbers.getD 2 0 }
  match left with
  | none => (t, .cutOff)
  | some (taken, rest) =>
    if taken ≤ length then (t, .behind (length - taken) rest)
    else (t, .refused (.malformed "ZIP64 extra-data field is the wrong length"))

/-! ### Names and comments in Unicode -/

/-- The text of a field that replaces `old`: a version, the checksum of what it replaces, and UTF-8
up to the length of the field. -/
def replacement (old : Bytes) (length : Nat) (bs : Bytes) : Option Bytes × Onward :=
  if bs.length < 5 then (none, .cutOff)
  else if length < 5 then (none, .refused (.malformed "Unicode extra field is too small"))
  else if bs.length < length then (none, .cutOff)
  else
    let text := (bs.drop 5).take (length - 5)
    if number 4 bs 1 ≠ Checksum.of old then
      (none, .refused (.malformed "CRC32 checksum failed on Unicode extra field"))
    else if (Utf8.decode? text).toOption.isNone then (none, .refused (.malformed "Invalid UTF-8"))
    else (some text, .at (bs.drop length))

/-- After a field with the name. -/
def Told.renamed (t : Told) (length : Nat) (bs : Bytes) : Told × Onward :=
  match replacement t.rawName length bs with
  | (some name, onward) => ({ t with name := name, rawName := name }, onward)
  | (none, onward) => (t, onward)

/-- After a field with the comment. -/
def Told.recommented (t : Told) (length : Nat) (bs : Bytes) : Told × Onward :=
  match replacement t.comment length bs with
  | (some comment, onward) => ({ t with comment := comment }, onward)
  | (none, onward) => (t, onward)

/-! ### Times and encryption -/

/-- Behind a field of times in one part: four octets, the number of that part, its length, and
three times of eight octets each. -/
def fineTimes (length : Nat) (bs : Bytes) : Onward :=
  if length ≠ 32 then .refused (.unsupported "NTFS extra field has an unsupported length")
  else if bs.length < 6 then .cutOff
  else if number 2 bs 4 ≠ 1 then
    .refused (.unsupported "NTFS extra field has an unsupported attribute tag")
  else if bs.length < 8 then .cutOff
  else if number 2 bs 6 ≠ 24 then
    .refused (.unsupported "NTFS extra field has an unsupported attribute size")
  else .behind 32 bs

/-- How many of the low eight bits of a number are set. -/
def bitCount (n : Nat) : Nat :=
  (List.range 8).countP n.testBit

/-- Behind a field of times whose first octet tells which there are: its length fits their number,
or is that of a single one. -/
def coarseTimes (length : Nat) (bs : Bytes) : Onward :=
  match bs with
  | [] => .cutOff
  | flags :: rest =>
    if length ≠ 5 ∧ length ≠ 1 + 4 * bitCount flags.toNat then
      .refused (.unsupported "flags and len don't match in extended timestamp field")
    else if length = 5 then .behind 4 rest
    else .behind (4 * bitCount (flags.toNat % 8)) rest

/-- The method of data that are encrypted with a field of its own for that. -/
def sealedMethod : Nat := 99

/-- After a field that tells how the data are encrypted: the version of that field, who defines
it, the strength, and the method of the data behind the encryption. -/
def Told.encrypted (t : Told) (length : Nat) (bs : Bytes) : Told × Onward :=
  if length ≠ 7 then
    (t, .refused (.unsupported "AES extra data field has an unsupported length"))
  else if bs.length < 7 then (t, .cutOff)
  else if number 2 bs 2 ≠ 0x4541 then (t, .refused (.malformed "Invalid AES vendor"))
  else if number 2 bs 0 ≠ 1 ∧ number 2 bs 0 ≠ 2 then
    (t, .refused (.malformed "Invalid AES vendor version"))
  else if number 1 bs 4 < 1 ∨ 3 < number 1 bs 4 then
    (t, .refused (.malformed "Invalid AES encryption strength"))
  else ({ t with method := number 2 bs 5, sealed := true }, .at (bs.drop 7))

/-! ### All fields -/

/-- After the field at the front. -/
def Told.field (t : Told) (bs : Bytes) : Told × Onward :=
  if bs.length < 4 then (t, .cutOff)
  else
    let kind := number 2 bs 0
    let length := number 2 bs 2
    let rest := bs.drop 4
    if kind = 0x0001 then t.widened length rest
    else if kind = 0x000A then (t, fineTimes length rest)
    else if kind = 0x5455 then (t, coarseTimes length rest)
    else if kind = 0x6375 then t.recommented length rest
    else if kind = 0x7075 then t.renamed length rest
    else if kind = 0x9901 then t.encrypted length rest
    else (t, .behind length rest)

/-- After all fields; `fuel` bounds how many there are. -/
def Told.fields : (fuel : Nat) → Told → Bytes → Except Fault Told
  | 0, t, _ => .ok t
  | fuel + 1, t, bs =>
    if bs.isEmpty then .ok t
    else
      match t.field bs with
      | (t, .at rest) => fields fuel t rest
      | (t, .cutOff) => .ok t
      | (_, .refused fault) => .error fault

/-- After the extra fields of its record. -/
def Told.corrected (t : Told) (extra : Bytes) : Except Fault Told := do
  let t ← Told.fields (extra.length + 1) t extra
  if t.method = sealedMethod ∧ !t.sealed then
    .error (.malformed "AES encryption without AES extra data field")
  return t

end ImageScoring.Zip
