import ImageScoring.Files.Path
import ImageScoring.Settings.Choice
import ImageScoring.Settings.Command
import ImageScoring.Settings.Environment

/-!
# Configuration

Every setting has a default, a `Change` sets one of them, and variables of the environment
override both. A variable that does not parse for its setting is as good as unset.
-/

namespace ImageScoring

/-- The files that a workspace is made of. Names are seen from the asset directory; `workerDir`
and `dataDir` are seen from the workspace and from its plugins. -/
structure Sources where
  assetDir : Path
  workerArchive : String := "ImageJ.zip"
  workerDir : String := "ImageJ"
  loader : String := "ijloader.jar"
  filterPlugin : String := "diamond_filter.jar"
  dataDir : String := "Diamond"
  deriving DecidableEq, Repr

namespace Sources

def archivePath (s : Sources) : Path := s.assetDir.join (.ofText s.workerArchive)

def loaderPath (s : Sources) : Path := s.assetDir.join (.ofText s.loader)

def pluginPath (s : Sources) : Path := s.assetDir.join (.ofText s.filterPlugin)

end Sources

/-- What stands for the display number in the arguments of a display server. -/
def displayPlaceholder : String := "\x7bdisplay\x7d"

/-- All settings of a filter. -/
structure Config where
  sources : Sources
  worker : Command := ⟨"java",
    ["-Djava.awt.headless=true", "-server", "-cp", "ij.jar:ijloader.jar:.", "ijloader.IJLoader"]⟩
  server : Command := ⟨"Xvfb",
    [":" ++ displayPlaceholder, "-listen", "tcp", "-screen", "0", "1024x768x24"]⟩
  /-- How many display numbers are tried. -/
  maxDisplays : Nat := 100
  /-- A display that needs no server of the filter's own. -/
  fixedDisplay : Option Nat := none
  replyForm : ReplyForm := .framed
  imageSource : ImageSource := .object
  framingPolicy : FramingPolicy := .isolate
  deriving DecidableEq, Repr

namespace Config

/-- The home directory of the superuser. -/
def superuserHome : Path := ascii "/root"

/-- The user's home directory: the one that the variable for it holds, else `home`, which is the one
of the user's account, if there is such an account. -/
def homeDir (env : Environment) (home : Option Path) : Option Path :=
  match env.bytes? "HOME" with
  | none | some [] => home
  | some dir => some dir

/-- The directory of the user's data: the variable for it counts if its path is absolute. -/
def dataDir (env : Environment) (home : Option Path) : Option Path :=
  let fallback := (homeDir env home).map fun dir => Path.join dir (ascii ".local/share")
  match env.bytes? "XDG_DATA_HOME" with
  | some dir => if Path.isAbsolute dir then some dir else fallback
  | none => fallback

/-- The directory that assets come from by default: the one of this program in the user's data, or
a hidden one where the program runs if the user has none. -/
def defaultAssetDir (env : Environment) (home : Option Path) : Path :=
  match dataDir env home with
  | some dir => Path.join dir (ascii "ijexec")
  | none => ascii ".ijexec"

/-- The settings before any change. -/
def default (env : Environment) (home : Option Path := some superuserHome) : Config where
  sources := { assetDir := defaultAssetDir env home }

/-- A relative directory of data does not count, and the user need not have a home. -/
example :
    (default ⟨[("XDG_DATA_HOME", ascii "data")]⟩ none).sources.assetDir = ascii ".ijexec" := by
  decide

/-- A change of one setting. -/
inductive Change where
  | assetDir (dir : String)
  | worker (command : Command)
  | server (command : Command)
  | maxDisplays (count : Nat)
  | fixedDisplay (number : Nat)
  | replyForm (form : ReplyForm)
  | imageSource (source : ImageSource)
  | framingPolicy (policy : FramingPolicy)
  deriving DecidableEq, Repr

/-- The settings after a change. -/
def apply (c : Config) : Change → Config
  | .assetDir dir => { c with sources := { c.sources with assetDir := .ofText dir } }
  | .worker command => { c with worker := command }
  | .server command => { c with server := command }
  | .maxDisplays count => { c with maxDisplays := count }
  | .fixedDisplay number => { c with fixedDisplay := some number }
  | .replyForm form => { c with replyForm := form }
  | .imageSource source => { c with imageSource := source }
  | .framingPolicy policy => { c with framingPolicy := policy }

/-- The settings after a sequence of changes. -/
def applyAll (c : Config) (changes : List Change) : Config :=
  changes.foldl apply c

/-- The settings with the environment's in their place. The programs of the worker and of the
display server are set alone; their arguments stay. -/
def override (env : Environment) (c : Config) : Config where
  sources := { c.sources with
    assetDir := ((env.text? "IJEXEC_HOME").map Path.ofText).getD c.sources.assetDir
    workerArchive := (env.text? "IJEXEC_WORKER_ARCHIVE").getD c.sources.workerArchive }
  worker := { c.worker with program := (env.text? "IJEXEC_JAVA").getD c.worker.program }
  server := { c.server with program := (env.text? "IJEXEC_XVFB").getD c.server.program }
  maxDisplays := (env.number? "IJEXEC_MAX_DISPLAYS").getD c.maxDisplays
  fixedDisplay := (env.number? "IJEXEC_DISPLAY").or c.fixedDisplay
  replyForm := (env.parsed? ReplyForm.choice.parse "IJEXEC_PROTOCOL").getD c.replyForm
  imageSource := (env.parsed? ImageSource.choice.parse "IJEXEC_IMAGE_SOURCE").getD c.imageSource
  framingPolicy :=
    (env.parsed? FramingPolicy.choice.parse "IJEXEC_ON_FRAMING_ERROR").getD c.framingPolicy

end Config

end ImageScoring
