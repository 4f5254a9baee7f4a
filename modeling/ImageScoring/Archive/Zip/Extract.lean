import ImageScoring.Archive.Zip
import ImageScoring.Files.Action

/-!
# Unpacking zip archives

Members are unpacked one after the other below a directory. A name that is absolute or leads above
that directory is refused, and so is one that leads to or through a link. Members are read from the
archive as it is at that moment: one that overwrites the archive itself ends what can be read.
-/

namespace ImageScoring.Zip

/-- Something done while unpacking. -/
abbrev Unpacking (α : Type) := DiskAction Fault α

/-- A file operation while unpacking. -/
def onDisk {α : Type} (action : DiskAction FileFault α) : Unpacking α :=
  ExceptT.adapt Fault.disk action

/-- The names of a path that stays below the directory it begins at; `acc` holds those so far, last
one first. -/
def namesBelow? (acc : List Name) : List Path.Component → Option (List Name)
  | [] => some acc.reverse
  | .root :: _ => none
  | .here :: steps => namesBelow? acc steps
  | .named name :: steps => namesBelow? (name :: acc) steps
  | .up :: steps =>
    match acc with
    | [] => none
    | _ :: acc => namesBelow? acc steps

/-- The names of a member's path. -/
def memberNames (m : Member) : Except Fault (List Name) :=
  match if 0 ∈ m.name then none else namesBelow? [] (Path.components m.name) with
  | some names => .ok names
  | none => .error (.malformed "Invalid file path")

/-- Makes a directory and those above it, and keeps it writable. -/
def makeWritableDirs (path : Path) : Unpacking Unit := do
  onDisk (Disk.makeDirs path)
  match ← onDisk (Disk.look (·.status true path)) with
  | (_, .dir mode) => onDisk (Disk.setMode path (mode ||| 0o700))
  | _ => pure ()

/-- Makes sure that no link lies at a path, and that something lies there unless it is the `last`
path on the way. -/
def settle (last : Bool) (path : Path) : Unpacking Unit := do
  match (← get).status false path with
  | .error .missing => unless last do makeWritableDirs path
  | .error fault => throw (.disk fault)
  | .ok (_, .link _) => throw (.malformed "Symlink is not inherently safe")
  | .ok _ => pure ()

/-- The path that a member is unpacked to; what lies above it is made. -/
def preparePath : Path → List Name → Unpacking Path
  | path, [] => pure path
  | path, name :: names => do
    let path := Path.join path name
    settle names.isEmpty path
    preparePath path names

/-- Unpacks a member. -/
def extractMember (archive : Place) (root : Path) (m : Member) : Unpacking Unit := do
  let readArchive {α : Type} (view : Bytes → Except Fault α) : Unpacking α :=
    Disk.look fun d => view (d.content archive)
  liftM m.readable
  let start ← readArchive m.start
  let path ← preparePath root (← liftM (memberNames m))
  if m.isLink then
    let target ← readArchive (m.data start)
    if (Utf8.decode? target).toOption.isNone then
      throw (.malformed "Invalid UTF-8 as symlink target")
    onDisk (Disk.link target path)
  else if m.isDir then makeWritableDirs path
  else
    let there ← onDisk (Disk.create path)
    let bytes ← readArchive (m.data start)
    onDisk (Disk.write there bytes)

/-- Unpacks the archive that lies at a place. -/
def extract (archive : Place) (root : Path) : Unpacking Unit := do
  let members ← Disk.look fun d => members (d.content archive)
  let root ← onDisk (Disk.look (·.canonical root))
  members.forM (extractMember archive root.path)

end ImageScoring.Zip
