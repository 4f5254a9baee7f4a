import ImageScoring.Files.Resolve

/-!
# File operations

What a program does with files: making and copying files, making directories and links, removing
them. Each operation is an action on a disk that may fail; the disk stays as the operation leaves
it, also when it fails.
-/

namespace ImageScoring

/-- Something done with a disk, which may fail. -/
abbrev DiskAction (ε α : Type) := ExceptT ε (StateM Disk) α

namespace Disk

/-- The outcome of something that only looks at the disk. -/
def look {ε α : Type} (view : Disk → Except ε α) : DiskAction ε α :=
  ExceptT.mk fun d => (view d, d)

/-- The octets at a place; none if no file lies there. -/
def content (d : Disk) (place : Place) : Bytes :=
  match d.find? place with
  | some (.file content) => content
  | _ => []

/-- Puts something at a place. -/
def putAt (there : Place) (node : Node) : DiskAction FileFault Unit :=
  modify (·.put there node)

/-- Makes the file of a path, or empties it, and tells where it lies. -/
def create (path : Path) : DiskAction FileFault Place := do
  match ← look (·.locate true path) with
  | .vacant parent name slash =>
    if slash then throw .isDirectory
    putAt (parent ++ [name]) (.file [])
    return parent ++ [name]
  | .reached there =>
    if let some (.dir _) := (← get).find? there then throw .isDirectory
    putAt there (.file [])
    return there

/-- Makes the file of a path unless it is there. -/
def extend (path : Path) : DiskAction FileFault Unit := do
  match ← look (·.locate true path) with
  | .vacant parent name slash =>
    if slash then throw .isDirectory
    putAt (parent ++ [name]) (.file [])
  | .reached there =>
    if let some (.dir _) := (← get).find? there then throw .isDirectory

/-- The vacant place that a path names; anything there already, a link too, is a fault. -/
def vacancy (path : Path) : DiskAction FileFault (Place × Bool) := do
  match ← look (·.locate false path) with
  | .vacant parent name slash => return (parent ++ [name], slash)
  | .reached _ => throw .alreadyThere

/-- Makes a file that must not be there yet. -/
def createNew (path : Path) : DiskAction FileFault Place := do
  let (there, slash) ← vacancy path
  if slash then throw .isDirectory
  putAt there (.file [])
  return there

/-- Writes the content of a file. -/
def write (there : Place) (bytes : Bytes) : DiskAction FileFault Unit :=
  putAt there (.file bytes)

/-- Copies a file. What it is copied to is emptied first, so a file copied to itself is empty. -/
def copy (source target : Path) : DiskAction FileFault Unit := do
  match ← look (·.status true source) with
  | (origin, .file _) =>
    let there ← create target
    write there ((← get).content origin)
  | _ => throw .notRegular

/-- Makes a directory. -/
def makeDir (path : Path) (mode : Nat) : DiskAction FileFault Unit := do
  let (there, _) ← vacancy path
  putAt there (.dir mode)

/-- Makes a directory unless it is there, and first those above it; `depth` bounds how many. -/
def makeDirsWithin : (depth : Nat) → Path → DiskAction FileFault Unit
  | 0, _ => throw .missing
  | depth + 1, path =>
    if path = [] then pure ()
    else
      let orThere (fault : FileFault) : DiskAction FileFault Unit := do
        unless (← get).isDir path do throw fault
      tryCatch (makeDir path plainMode) fun fault =>
        if fault = .missing then
          match Path.parent? path with
          | none => throw .missing
          | some parent => do
            makeDirsWithin depth parent
            tryCatch (makeDir path plainMode) orThere
        else orThere fault

/-- Makes a directory unless it is there, and first those above it. -/
def makeDirs (path : Path) : DiskAction FileFault Unit :=
  makeDirsWithin (path.length + 1) path

/-- Sets the permissions of the directory that a path leads to; those of files are not kept. -/
def setMode (path : Path) (mode : Nat) : DiskAction FileFault Unit := do
  match ← look (·.status true path) with
  | (there, .dir _) => putAt there (.dir mode)
  | _ => pure ()

/-- Makes a symbolic link. -/
def link (target path : Path) : DiskAction FileFault Unit := do
  if 0 ∈ target then throw .zeroOctet
  if target = [] then throw .missing
  if pathLimit ≤ target.length then throw .nameTooLong
  let (there, _) ← vacancy path
  putAt there (.link target)

/-- Gives a file or a link a second name. -/
def name (source path : Path) : DiskAction FileFault Unit := do
  let (_, node) ← look (·.status false source)
  let (there, _) ← vacancy path
  match node with
  | .dir _ => throw .notPermitted
  | node => putAt there node

/-- Removes a file or a link. -/
def remove (path : Path) : DiskAction FileFault Unit := do
  match ← look (·.status false path) with
  | (_, .dir _) => throw .isDirectory
  | (there, _) => modify (·.erase there)

/-- The digits of a number, six of them. -/
def sixDigits (n : Nat) : Name :=
  (List.range 6).reverse.map fun i => UInt8.ofNat (48 + n / 10 ^ i % 10)

/-- The first name that is not taken in a directory: `stem` and a number from `n` on. -/
def freshName (d : Disk) (parent : Place) (stem : Name) : (tries n : Nat) → Option Name
  | 0, _ => none
  | tries + 1, n =>
    let name := stem ++ sixDigits n
    if d.find? (parent ++ [name]) = none then some name else d.freshName parent stem tries (n + 1)

/-- Makes a directory of a new name in the directory that a path leads to, for nobody else to
read, and tells where it lies and its path. -/
def makeFreshDir (parent : Path) (stem : Name) : DiskAction FileFault (Place × Path) := do
  let there ← look (·.canonical parent)
  match (← get).freshName there stem ((← get).entries.length + 1) 0 with
  | none => throw .alreadyThere
  | some name =>
    makeDir (Path.join parent name) 0o700
    return (there ++ [name], Path.join parent name)

end Disk

end ImageScoring
