import ImageScoring.Archive.Tar
import ImageScoring.Files.Action

/-!
# Unpacking tar archives

Members are unpacked in order, directories after everything else. A path is taken from the
directory that is unpacked to, its leading slashes dropped; one that has a parent component is
passed over. Nothing is written where the directory of a member does not lie inside that directory,
links followed. What is in the way of a file or a link is removed first, unless it is a directory.
-/

namespace ImageScoring.Tar

/-- Something done while unpacking. -/
abbrev Unpacking (α : Type) := DiskAction Fault α

/-- A file operation while unpacking. -/
def onDisk {α : Type} (action : DiskAction FileFault α) : Unpacking α :=
  ExceptT.adapt Fault.disk action

/-- The names of a member's path; `none` if it has a parent component. -/
def namesBelow? : List Path.Component → Option (List Name)
  | [] => some []
  | .up :: _ => none
  | .named name :: steps => (namesBelow? steps).map (name :: ·)
  | .root :: steps => namesBelow? steps
  | .here :: steps => namesBelow? steps

/-- Refuses a path that does not lead to something inside `root`, links followed. -/
def confine (root : Place) (path : Path) : Unpacking Unit := do
  let there ← onDisk (Disk.look (·.canonical path))
  unless root.isPrefixOf there do
    throw (.malformed "trying to unpack outside of destination path")

/-- Makes what is missing of the directories `names` below `base`, each inside `root`. -/
def makeMissing (root : Place) (base : Path) : List Name → Unpacking Unit
  | [] => pure ()
  | name :: names => do
    let path := Path.join base name
    if ((← get).status false path).toOption.isNone then
      confine root base
      onDisk (Disk.makeDirs path)
    makeMissing root path names

/-- Makes a directory; one that is there stays. -/
def makeDir (path : Path) : Unpacking Unit :=
  onDisk <| tryCatch (Disk.makeDir path Disk.plainMode) fun fault => do
    match (← get).status false path with
    | .ok (_, .dir _) => unless fault = .alreadyThere do throw fault
    | _ => throw fault

/-- Sets the permissions that a member tells, as far as they are for reading, writing and
searching. -/
def setMode (m : Member) (path : Path) : Unpacking Unit :=
  match m.mode with
  | some mode => onDisk (Disk.setMode path (mode &&& 0o777))
  | none => pure ()

/-- Does what needs a vacant path, after removing what is there. -/
def replacing {α : Type} (path : Path) (action : DiskAction FileFault α) :
    DiskAction FileFault α :=
  tryCatch action fun fault => do
    if fault = .alreadyThere then
      Disk.remove path
      action
    else throw fault

/-- Unpacks a member to a path whose directory is there. -/
def unpackTo (root : Place) (m : Member) (path : Path) : Unpacking Unit := do
  let target : Unpacking Path := match m.target with
    | none => throw (.malformed "hard link listed but no link name found")
    | some target =>
      if (Path.components target).isEmpty then throw (.malformed "symlink destination is empty")
      else pure target
  match m.kind with
  | .dir =>
    makeDir path
    setMode m path
  | .link => onDisk (replacing path (Disk.link (← target) path))
  | .hardLink =>
    let source := Path.join root.path (← target)
    confine root source
    onDisk (Disk.name source path)
  | .longName | .longTarget | .attributes | .globalAttributes => pure ()
  | .sparse | .file =>
    if m.plain && m.path.getLast? == some Path.slash then
      makeDir path
      setMode m path
    else
      let there ← onDisk (replacing path (Disk.createNew path))
      onDisk (Disk.write there m.content)

/-- Unpacks a member below `root`. -/
def unpackMember (root : Place) (m : Member) : Unpacking Unit := do
  match namesBelow? (Path.components m.path) with
  | none => pure ()
  | some names =>
    match names.getLast? with
    | none => pure ()
    | some last =>
      makeMissing root root.path names.dropLast
      let parent := names.dropLast.foldl Path.join root.path
      confine root parent
      unpackTo root m (Path.join parent last)

/-- The members in the order in which they are unpacked: directories last, among them those of
greater paths first. -/
def ordered (members : List Member) : List Member :=
  members.filter (·.kind ≠ .dir) ++
    (members.filter (·.kind = .dir)).mergeSort fun a b => Disk.nameLe b.path a.path

/-- Unpacks an archive into the directory that a path leads to. -/
def unpack (archive : Bytes) (directory : Path) : Unpacking Unit := do
  let root ← onDisk (Disk.look (·.canonical directory))
  let members ← liftM (members archive)
  (ordered members).forM (unpackMember root)

end ImageScoring.Tar
