import ImageScoring.Files.Fault
import ImageScoring.Files.Path
import ImageScoring.Text.Count

/-!
# Tar archives

An archive is a sequence of blocks of 512 octets: for each member a header block and its data,
filled up to whole blocks. It ends where the octets end or with a block of zeros. A member may be
preceded by others that tell its long name, its long link target, or a list of extended attributes;
they count only where the header says that it is of a kind that knows them.
-/

namespace ImageScoring.Tar

-- Sums start from the literal zero.
attribute [local instance (high)] Zero.ofOfNat0

/-- Why an archive cannot be read or unpacked. -/
inductive Fault where
  | malformed (what : String)
  | disk (fault : FileFault)
  deriving DecidableEq, Repr

/-- The wording of a fault. -/
def Fault.message : Fault → String
  | .malformed what => what
  | .disk fault => fault.message

/-- The octets of a block. -/
def blockSize : Nat := 512

/-! ### Header fields -/

/-- The octets before the first zero. -/
def untilZero (bs : Bytes) : Bytes :=
  bs.takeWhile (· != 0)

/-- A field of a header. -/
def slice (offset width : Nat) (header : Bytes) : Bytes :=
  (header.drop offset).take width

/-- The value of octal digits that continue the number `acc`. -/
def octalFrom? (acc : Nat) : List Char → Option Nat
  | [] => some acc
  | c :: cs => if '0' ≤ c ∧ c ≤ '7' then octalFrom? (8 * acc + (c.toNat - '0'.toNat)) cs else none

/-- The number below 2⁶⁴ that a field writes in octal digits, white space around it. -/
def octal? (field : Bytes) : Option Nat := do
  let cs := Text.trim (← (Utf8.decode? (untilZero field)).toOption)
  let digits := if cs.head? = some '+' then cs.tail else cs
  if digits.isEmpty then none
  (octalFrom? 0 digits).filter (· < Count.lengthLimit)

/-- The number in a field: octal digits, or its last eight octets behind a marked first one. -/
def number? (field : Bytes) : Option Nat :=
  if (field.headD 0) < 0x80 then octal? field
  else if field.length = 8 then
    some (Bytes.ofBigEndian ((field.headD 0 ^^^ 0x80) :: field.tail))
  else some (Bytes.ofBigEndian (field.drop (field.length - 8)))

/-- A field that has to hold a number. -/
def required (what : String) (value : Option Nat) : Except Fault Nat :=
  match value with
  | some n => .ok n
  | none => .error (.malformed ("numeric field was not a number: " ++ what))

/-- Whether a header is of the kind that splits long paths. -/
def isSplitting (header : Bytes) : Bool :=
  slice 257 8 header == ascii "ustar" ++ [0] ++ ascii "00"

/-- Whether a header is of the kind that knows sparse files. -/
def isSparseAware (header : Bytes) : Bool :=
  slice 257 8 header == ascii "ustar  " ++ [0]

/-- The sum of a header's octets, those of the field for the sum taken as blanks. -/
def headerSum (header : Bytes) : Nat :=
  ((header.take 148 ++ List.replicate 8 0x20 ++ header.drop 156).map UInt8.toNat).sum

/-- The path that a header tells. -/
def headerPath (header : Bytes) : Path :=
  let name := untilZero (slice 0 100 header)
  if isSplitting header then
    let front := untilZero (slice 345 155 header)
    if front.isEmpty then name else front ++ Path.slash :: name
  else name

/-- The link target that a header tells. -/
def headerTarget (header : Bytes) : Option Path :=
  let target := untilZero (slice 157 100 header)
  if target.isEmpty then none else some target

/-- The kind of a member. -/
inductive Kind where
  | dir
  | link
  | hardLink
  | longName
  | longTarget
  | attributes
  | globalAttributes
  | sparse
  /-- A regular file, and whatever else has no place of its own here. -/
  | file
  deriving DecidableEq, Repr

/-- Whether a member of that kind is there to tell something about others. -/
def Kind.isTelling : Kind → Bool
  | .longName | .longTarget | .attributes | .globalAttributes => true
  | .dir | .link | .hardLink | .sparse | .file => false

/-- The kind that a header tells. -/
def headerKind (header : Bytes) : Kind :=
  let letter := Char.ofNat ((header.getD 156 0).toNat)
  ([('5', .dir), ('2', .link), ('1', .hardLink), ('L', .longName), ('K', .longTarget),
    ('x', .attributes), ('g', .globalAttributes), ('S', .sparse)].lookup letter).getD .file

/-! ### Extended attributes -/

/-- The lines of a list of attributes; `acc` holds the octets of the current one, last one first. -/
def linesFrom (acc : Bytes) : Bytes → List Bytes
  | [] => [acc.reverse]
  | b :: bs => if b = newline then acc.reverse :: linesFrom [] bs else linesFrom (b :: acc) bs

/-- The key and the value of a line: its length with the newline, a blank, the key, an equals sign
and the value. -/
def attributeLine? (line : Bytes) : Option (Bytes × Bytes) := do
  let length := line.takeWhile (· != 0x20)
  if length.length = line.length then none
  let count ← Count.read? Count.lengthLimit (← (Utf8.decode? length).toOption)
  if line.length + 1 ≠ count then none
  let rest := line.drop (length.length + 1)
  let key := rest.takeWhile (· != 0x3D)
  if key.length = rest.length then none
  return (key, rest.drop (key.length + 1))

/-- The lines of a list of attributes, `none` for those that are malformed. An empty line ends the
list. -/
def attributeLines (list : Bytes) : List (Option (Bytes × Bytes)) :=
  ((linesFrom [] list).takeWhile (· ≠ [])).map attributeLine?

/-- The first value of a key, malformed lines passed over. -/
def attribute? (list : Bytes) (key : String) : Option Bytes :=
  ((attributeLines list).filterMap id).lookup (ascii key)

/-- The first value of a key as a number; a malformed line before it hides it. -/
def numberAttribute? (list : Bytes) (key : String) : Option Nat := do
  let value ← (((attributeLines list).takeWhile Option.isSome).filterMap id).lookup (ascii key)
  Count.read? Count.lengthLimit (← (Utf8.decode? value).toOption)

/-! ### Sparse files -/

/-- The chunks that a table of offsets and lengths tells; one without either is none. -/
def chunks : (count : Nat) → Bytes → Except Fault (List (Nat × Nat))
  | 0, _ => .ok []
  | count + 1, table => do
    let offset := slice 0 12 table
    let length := slice 12 12 table
    let rest ← chunks count (table.drop 24)
    if offset.headD 0 = 0 ∨ length.headD 0 = 0 then return rest
    return (← required "offset" (number? offset), ← required "length" (number? length)) :: rest

/-- The chunks of the table blocks behind a header and what follows those; `fuel` bounds them. -/
def moreChunks : (fuel : Nat) → Bytes → Except Fault (List (Nat × Nat) × Bytes)
  | 0, _ => .error (.malformed "failed to read extension")
  | fuel + 1, bs => do
    let block := bs.take blockSize
    if block.length < blockSize then .error (.malformed "failed to read extension")
    let found ← chunks 21 block
    if block.getD 504 0 = 1 then
      let (more, rest) ← moreChunks fuel (bs.drop blockSize)
      return (found ++ more, rest)
    else return (found, bs.drop blockSize)

/-- One past the most octets of a file. -/
def fileLimit : Nat := 2 ^ 44

/-- Where the last chunk ends and how much of `size` octets of data the chunks use, `reached` and
`used` before them; every chunk begins at a whole block of the data and behind the last one. -/
def extent (size : Nat) : (reached used : Nat) → List (Nat × Nat) → Except Fault (Nat × Nat)
  | reached, used, [] => .ok (reached, used)
  | reached, used, (offset, length) :: rest =>
    if length ≠ 0 ∧ used % blockSize ≠ 0 then
      .error (.malformed "previous block in sparse file was not aligned to 512-byte boundary")
    else if offset < reached then .error (.malformed "out of order or overlapping sparse blocks")
    else if Count.lengthLimit ≤ offset + length then
      .error (.malformed "more bytes listed in sparse file than u64 can hold")
    else if size < used + length then
      .error (.malformed "sparse file consumed more data than the header listed")
    else extent size (offset + length) (used + length) rest

/-- The octets from `reached` on: the data of each chunk at its place, and zeros between them. -/
def assemble (data : Bytes) (reached : Nat) : List (Nat × Nat) → Bytes
  | [] => []
  | (offset, length) :: rest =>
    List.replicate (offset - reached) 0 ++ data.take length ++
      assemble (data.drop length) (offset + length) rest

/-- The content of a sparse file whose chunks are told. -/
def sparseContent (header data : Bytes) (table : List (Nat × Nat)) : Except Fault Bytes := do
  let (reached, used) ← extent data.length 0 0 table
  if reached ≠ (← required "size" (number? (slice 483 12 header))) then
    .error (.malformed "mismatch in sparse file chunks and size in header")
  if used ≠ data.length then
    .error (.malformed "mismatch in sparse file chunks and entry size in header")
  if fileLimit ≤ reached then .error (.disk .tooLarge)
  return assemble data 0 table

/-! ### Members -/

/-- A member of an archive. -/
structure Member where
  kind : Kind
  path : Path
  target : Option Path
  mode : Option Nat
  /-- The header is of no newer kind, so that a slash behind the path marks a directory. -/
  plain : Bool
  content : Bytes
  deriving DecidableEq, Repr

/-- What has been told about the member to come. -/
structure Pending where
  name : Option Bytes := none
  target : Option Bytes := none
  attributes : Option Bytes := none
  deriving DecidableEq, Repr

/-- A name without the zero that may end it. -/
def dropZero (name : Bytes) : Bytes :=
  if name.getLast? = some 0 then name.dropLast else name

/-- The path of a member. -/
def memberPath (told : Pending) (header : Bytes) : Path :=
  match told.name with
  | some name => dropZero name
  | none => ((told.attributes.bind (attribute? · "path"))).getD (headerPath header)

/-- The link target of a member. -/
def memberTarget (told : Pending) (header : Bytes) : Option Path :=
  match told.target with
  | some target => some (dropZero target)
  | none => ((told.attributes.bind (attribute? · "linkpath"))).or (headerTarget header)

/-- A header, its data, what follows both, and the chunks if the file is sparse. -/
structure Raw where
  header : Bytes
  data : Bytes
  table : Option (List (Nat × Nat)) := none
  rest : Bytes

/-- The header at the front of an archive and its data; `none` at the end. Data that are not there
to the last filling octet are a fault. -/
def raw? (told : Pending) (bs : Bytes) : Except Fault (Option Raw) := do
  if bs.isEmpty then return none
  let header := bs.take blockSize
  if header.length < blockSize then .error (.malformed "failed to read entire block")
  if header.all (· == 0) then return none
  if headerSum header ≠ (← required "cksum" (octal? (slice 148 8 header))) then
    .error (.malformed "archive header checksum mismatch")
  let written ← required "size" (number? (slice 124 12 header))
  let size :=
    if (headerKind header).isTelling then written
    else (told.attributes.bind (numberAttribute? · "size")).getD written
  let sparse := headerKind header = .sparse
  if sparse && !isSparseAware header then
    .error (.malformed "sparse entry type listed but not GNU header")
  let (table, bs) ← if sparse then do
      let found ← chunks 4 (header.drop 386)
      if header.getD 482 0 = 1 then
        let (more, rest) ← moreChunks bs.length (bs.drop blockSize)
        pure (some (found ++ more), rest)
      else pure (some found, bs.drop blockSize)
    else pure (none, bs.drop blockSize)
  let filled := (size + (blockSize - 1)) / blockSize * blockSize
  if bs.length < filled then .error (.malformed "unexpected EOF during skip")
  return some ⟨header, bs.take size, table, bs.drop filled⟩

/-- What is told with the data of a header added, if the header is one that tells something. -/
def Pending.add? (told : Pending) (raw : Raw) : Except Fault (Option Pending) :=
  let once (kept : Option Bytes) (what : String) (added : Pending) :
      Except Fault (Option Pending) :=
    if kept.isSome then
      .error (.malformed ("two " ++ what ++ " entries describing the same member"))
    else .ok (some added)
  if isSparseAware raw.header || isSplitting raw.header then
    match headerKind raw.header with
    | .longName => once told.name "long name" { told with name := some raw.data }
    | .longTarget => once told.target "long name" { told with target := some raw.data }
    | .attributes => once told.attributes "pax extensions" { told with attributes := some raw.data }
    | _ => .ok none
  else .ok none

/-- The member of a header under what has been told. -/
def Raw.member (told : Pending) (raw : Raw) : Except Fault Member := do
  let content ← match raw.table with
    | none => pure raw.data
    | some table => sparseContent raw.header raw.data table
  return {
    kind := headerKind raw.header
    path := memberPath told raw.header
    target := memberTarget told raw.header
    mode := octal? (slice 100 8 raw.header)
    plain := !isSplitting raw.header
    content := content }

/-- The members from a header on, `acc` before them, last one first; `fuel` bounds the headers. -/
def membersFrom : (fuel : Nat) → (told : Pending) → (acc : List Member) → Bytes →
    Except Fault (List Member)
  | 0, _, acc, _ => .ok acc.reverse
  | fuel + 1, told, acc, bs => do
    match ← raw? told bs with
    | none =>
      if told = {} then return acc.reverse
      else .error (.malformed
        "members found describing a future member but no future member found")
    | some raw =>
      match ← told.add? raw with
      | some told => membersFrom fuel told acc raw.rest
      | none => membersFrom fuel {} ((← raw.member told) :: acc) raw.rest

/-- The members of an archive. -/
def members (archive : Bytes) : Except Fault (List Member) :=
  membersFrom (archive.length + 1) {} [] archive

end ImageScoring.Tar
