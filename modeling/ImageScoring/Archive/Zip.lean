import ImageScoring.Archive.Inflate
import ImageScoring.Archive.Zip.Extra
import ImageScoring.Files.Path
import ImageScoring.Text.CodePage

/-!
# Zip archives

An archive ends in a record that tells where its directory is; the directory has a record for each
member, and that leads to a record in front of the member's data. Octets may stand before and
behind the archive: the end record is looked for from the end on, and the first directory record at
or behind the place told shows by how much everything is shifted. An end record for which anything
in the directory does not fit is passed over for an earlier one; the records in front of the data
are not looked at before the data are.
-/

namespace ImageScoring.Zip

/-- A member of an archive. -/
structure Member where
  name : Path
  method : Nat
  encrypted : Bool
  checksum : Nat
  /-- How many octets its data take in the archive, and where the record in front of them is. -/
  size : Nat
  header : Nat
  /-- Its kind and permissions, where they are told. -/
  mode : Option Nat
  deriving DecidableEq, Repr

/-! ### The directory -/

/-- Where the directory begins, how many records it has, and by how much the archive is shifted. -/
structure Directory where
  start : Nat
  count : Nat
  shift : Nat
  deriving DecidableEq, Repr

/-- The directory that an end record at a position tells of, if all its octets can be read: the
disk numbers and the counts are those of an archive in one part. -/
def narrowDirectory? (archive : Bytes) (position : Nat) (bs : Bytes) : Option Directory :=
  let offset := number 4 bs 16
  if number 2 bs 10 = 0 then
    some ⟨offset + (position - offset), number 2 bs 8, position - offset⟩
  else if position ≤ offset then none
  else (find? directorySignature archive offset position).map fun first =>
    ⟨first, number 2 bs 8, first - offset⟩

/-- The wide end record that a locator leads to, and by how much it is shifted: the first one
between the place told and the locator whose length reaches up to the locator, that is on the disk
told there, and that leaves room for as many records as it tells. -/
def wideEnd? (archive : Bytes) (locatorPosition : Nat) (locator : Bytes) : Option (Bytes × Nat) :=
  let told := number 8 locator 8
  let between := (archive.take locatorPosition).drop told
  (occurrences wideEndSignature between).reverse.findSome? fun shift => do
    let position := told + shift
    let bs ← record? wideEndSignature 56 archive position
    let length := number 8 bs 4
    let records := min (number 8 bs 32 * 46) (wideLimit - 1)
    guard (44 ≤ length ∧ position + length + 12 = locatorPosition)
    guard (number 4 bs 20 = number 4 locator 4)
    guard ((records + number 8 bs 48) % wideLimit ≤ position)
    return (bs, shift)

/-- The directory that a wide end record tells of: the archive is in one part, no more records are
on its disk than there are at all, and no newer version is needed than the one it was made by. -/
def wideDirectory? (archive : Bytes) (locatorPosition : Nat) (locator : Bytes) :
    Option Directory := do
  guard (number 8 locator 8 < locatorPosition ∧ number 4 locator 16 ≤ 1)
  let (bs, shift) ← wideEnd? archive locatorPosition locator
  guard (number 8 bs 24 ≤ number 8 bs 32 ∧ number 2 bs 14 ≤ number 2 bs 12)
  guard (number 4 bs 16 = number 4 bs 20)
  return ⟨number 8 bs 48 + shift, number 8 bs 32, shift⟩

/-- The directory of the end record at a position. -/
def directory? (archive : Bytes) (position : Nat) : Option Directory := do
  let bs ← record? endSignature 22 archive position
  if (bs.drop 22).length < number 2 bs 20 then none
  let wide := number 2 bs 10 = 0xFFFF ∨ number 4 bs 16 = tooWide
  let locator? :=
    if wide ∧ 20 ≤ position then record? locatorSignature 20 archive (position - 20) else none
  match locator? with
  | some locator => wideDirectory? archive (position - 20) locator
  | none =>
    if number 2 bs 4 ≠ number 2 bs 6 then none
    narrowDirectory? archive position bs

/-- The kind and permissions that a directory record tells, by the system it was made on: Unix
keeps both, DOS a directory bit and a write protection bit. -/
def mode? (system attributes : Nat) : Option Nat :=
  if attributes = 0 then none
  else if system = 3 then some (attributes / 2 ^ 16)
  else if system = 0 then
    let mode := if attributes.testBit 4 then 0o040775 else 0o100664
    some (if attributes.testBit 0 then mode - (mode &&& 0o222) else mode)
  else none

/-- A text of a record in UTF-8: it is written in that, or in the code page. -/
def inUtf8 (unicode : Bool) (raw : Bytes) : Bytes :=
  if unicode then Utf8.encode (Utf8.decodeLossy raw) else CodePage.toUtf8 raw

/-- The member whose directory record is at a position, and where the next one is. -/
def member (archive : Bytes) (d : Directory) (position : Nat) : Except Fault (Member × Nat) := do
  let some bs := record? directorySignature 46 archive position
    | .error (.malformed "Invalid Central Directory header")
  let nameLength := number 2 bs 28
  let extraLength := number 2 bs 30
  let commentLength := number 2 bs 32
  let length := 46 + nameLength + extraLength + commentLength
  if bs.length < length then .error (.malformed "directory record is cut off")
  let rest := bs.drop 46
  let unicode := (number 2 bs 8).testBit 11
  let told : Told := {
    name := inUtf8 unicode (rest.take nameLength)
    rawName := rest.take nameLength
    comment := inUtf8 unicode ((rest.drop (nameLength + extraLength)).take commentLength)
    method := number 2 bs 10
    unpacked := number 4 bs 24
    packed := number 4 bs 20
    header := number 4 bs 42 }
  let told ← told.corrected ((rest.drop nameLength).take extraLength)
  let header := told.header + d.shift
  if wideLimit ≤ header then .error (.malformed "Archive header is too large")
  return ({
    name := told.name
    method := told.method
    encrypted := (number 2 bs 8).testBit 0 || told.sealed
    checksum := number 4 bs 16
    size := told.packed
    header := header
    mode := mode? (number 2 bs 4 / 256) (number 4 bs 38) }, position + length)

/-- The members with one more: it takes the turn of an earlier one of its name. -/
def insert (m : Member) : List Member → List Member
  | [] => [m]
  | other :: ms => if other.name = m.name then m :: ms else other :: insert m ms

/-- `count` members from a position on, added to `acc`. -/
def membersFrom (archive : Bytes) (d : Directory) : (count : Nat) → (position : Nat) →
    (acc : List Member) → Except Fault (List Member)
  | 0, _, acc => .ok acc
  | count + 1, position, acc =>
    match member archive d position with
    | .ok (m, next) => membersFrom archive d count next (insert m acc)
    | .error fault => .error fault

/-- The members of an archive, in the order of their first records. -/
def members (archive : Bytes) : Except Fault (List Member) :=
  let read (position : Nat) : Option (List Member) :=
    (directory? archive position).bind fun d =>
      (membersFrom archive d d.count d.start []).toOption
  match (occurrences endSignature archive).findSome? read with
  | some members => .ok members
  | none => .error (.malformed "Could not find EOCD")

/-! ### Members -/

namespace Member

/-- Whether the data of a member can be read at all. -/
def readable (m : Member) : Except Fault Unit :=
  if m.encrypted then .error (.unsupported "Password required to decrypt file")
  else if m.method = 0 ∨ m.method = 8 then .ok ()
  else .error (.unsupported "Compression method not supported")

/-- Whether a member is a symbolic link, its data the target. -/
def isLink (m : Member) : Bool :=
  m.mode.any fun mode => mode &&& 0o120000 == 0o120000

/-- Whether a member is a directory: its name ends in a slash or a backslash. -/
def isDir (m : Member) : Bool :=
  m.name.getLast? == some Path.slash || m.name.getLast? == some 0x5C

/-- Where the data of a member of an archive begin: behind the record in front of them, whose name
and extra fields may differ from those in the directory. -/
def start (m : Member) (archive : Bytes) : Except Fault Nat :=
  match record? memberSignature 30 archive m.header with
  | none => .error (.malformed "Invalid local file header")
  | some front => .ok (m.header + 30 + number 2 front 26 + number 2 front 28)

/-- The data of a member that begin at a place of an archive. -/
def data (m : Member) (start : Nat) (archive : Bytes) : Except Fault Bytes :=
  let packed := (archive.drop start).take m.size
  match if m.method = 0 then some packed else Inflate.inflate? packed with
  | none => .error (.malformed "corrupt deflate stream")
  | some bytes => if Checksum.of bytes = m.checksum then .ok bytes else .error .damaged

end Member

end ImageScoring.Zip
