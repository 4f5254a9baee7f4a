import ImageScoring.Archive.Tar.Unpack
import ImageScoring.Archive.Zip.Extract
import ImageScoring.Error
import ImageScoring.Settings.Config

/-!
# Workspaces

Every filter has a workspace of its own: a new directory into which the worker's archive is
unpacked, with the support files and, twice, the user's bundle of scripts.

    <workspace>/
      ImageJ.zip                  the copy of the archive
      ImageJ/                     what it holds; the worker runs here
        ijloader.jar
        macros/<bundle>
        plugins/
          diamond_filter.jar
          Diamond/<bundle>

If anything goes wrong, the new directory is removed again.
-/

namespace ImageScoring

/-- A workspace: where it lies, its path, and the path of the directory that the worker runs in. -/
structure Workspace where
  place : Place
  root : Path
  workerDir : Path
  deriving DecidableEq, Repr

namespace Workspace

/-- What the names of workspaces begin with. -/
def stem : Name := ascii "imagejfind"

/-- The directory of plugins in the worker's. -/
def pluginsName : Path := ascii "plugins"

/-- The directory of scripts in the worker's. -/
def macrosName : Path := ascii "macros"

/-- One step of setting a workspace up: a failure tells what was done to which path. -/
def step {α : Type} (what : String) (path : Path) (action : DiskAction FileFault α) :
    DiskAction Error α :=
  ExceptT.adapt
    (fun fault => .workspace (what ++ " " ++ path.display ++ ": " ++ fault.message)) action

/-- Unpacks a bundle. -/
def unpackBundle (bundle : Bytes) (directory : Path) : DiskAction Error Unit :=
  ExceptT.adapt
    (fun fault => .workspace
      ("unpacking macro bundle into " ++ directory.display ++ ": " ++ fault.message))
    (Tar.unpack bundle directory)

/-- Copies the worker's archive to a new directory and unpacks it there. -/
def unpackWorker (sources : Sources) (root : Path) : DiskAction Error Path := do
  let copy := Path.join root (.ofText sources.workerArchive)
  step "copying" sources.archivePath (Disk.copy sources.archivePath copy)
  let archive ← step "opening" copy (Disk.look (·.canonical copy))
  ExceptT.adapt (fun fault => .archive fault.message) (Zip.extract archive root)
  let workerDir := Path.join root (.ofText sources.workerDir)
  unless (← get).isDir workerDir do
    throw (.workspace ("archive " ++ Path.display sources.archivePath ++
      " does not contain directory '" ++ sources.workerDir ++ "'"))
  return workerDir

/-- Fills a new directory, and tells the path of the directory that the worker runs in. -/
def populate (sources : Sources) (bundle : Bytes) (root : Path) : DiskAction Error Path := do
  let workerDir ← unpackWorker sources root
  step "copying" sources.loaderPath
    (Disk.copy sources.loaderPath (Path.join workerDir (.ofText sources.loader)))
  let plugins := Path.join workerDir pluginsName
  step "creating" plugins (Disk.makeDirs plugins)
  step "copying" sources.pluginPath
    (Disk.copy sources.pluginPath (Path.join plugins (.ofText sources.filterPlugin)))
  let data := Path.join plugins (.ofText sources.dataDir)
  step "creating" data (Disk.makeDir data 0o700)
  unpackBundle bundle data
  let macros := Path.join workerDir macrosName
  step "creating" macros (Disk.makeDirs macros)
  unpackBundle bundle macros
  return workerDir

/-- Sets a workspace up in the directory for temporary files. -/
def bootstrap (temporary : Path) (sources : Sources) (bundle : Bytes) :
    DiskAction Error Workspace := do
  let (place, root) ← ExceptT.adapt
    (fun fault => .workspace ("creating temporary directory: " ++ fault.message))
    (Disk.makeFreshDir temporary stem)
  let workerDir ← tryCatch (populate sources bundle root) fun e => do
    modify (·.eraseTree place)
    throw e
  return ⟨place, root, workerDir⟩

/-- Removes a workspace. -/
def remove (w : Workspace) (d : Disk) : Disk :=
  d.eraseTree w.place

end Workspace

end ImageScoring
