import ImageScoring.CommandLine.Options
import ImageScoring.Host.Service
import ImageScoring.Settings.LogDirectives
import ImageScoring.Settings.Logging
import ImageScoring.Version

/-!
# The command line

The program serves one filter over its input and output, as the environment configures it, and ends
with a status that tells whether that went well. A failure is told on the error output with
everything that caused it. What is logged beside that is not told here, except that a log filter
may be no filter, and that the log file is made.
-/

namespace ImageScoring.CommandLine

/-- What a run of the program leaves: its status, what it writes to both outputs, the system, and
the filter if one was started. -/
structure Report (σ : Type) where
  status : Nat
  output : Bytes := []
  errors : String := ""
  system : System
  filter : Option (Filter σ) := none

/-- How the program is used. -/
def usage : String := "usage: ijexec --filter | --version\n"

/-- What the program tells of its version. -/
def versionLine : String := "ijexec " ++ Version.full ++ "\n"

/-! ### Telling a failure -/

/-- A text between two control sequences, if colours are wanted. -/
def painted (colored : Bool) (before after text : String) : String :=
  if colored then before ++ text ++ after else text

/-- What caused an error, down to the part of the system that failed. -/
def causes (e : Error) : List String :=
  match e with
  | .io cause | .archive cause => [e.message, cause]
  | _ => [e.message]

/-- The account of an error that ended the service. -/
def account (colored : Bool) (e : Error) : String :=
  let title := painted colored "\x1b[1m" "\x1b[0m" (painted colored "\x1b[31m" "\x1b[39m" "error")
  let cause := painted colored "\x1b[33m" "\x1b[39m" "caused by"
  (causes e).foldl (fun text c => text ++ "  " ++ cause ++ ": " ++ c ++ "\n")
    (title ++ ": filter session failed\n")

/-! ### Logging -/

/-- The warning about a log filter that is none, or what is told where reading it breaks off. -/
def logWarning (l : Logging) : Except String String :=
  match l.filter with
  | none => .ok ""
  | some filter =>
    match LogDirectives.read filter with
    | .ok () => .ok ""
    | .error .notDirective =>
      .ok ("Warning: Invalid log filter '" ++ filter ++ "', using default\n")
    | .error .torn => .error "reading the log filter: a part ends within a character\n"

/-- The name of a log file that has none. -/
def plainLogName : Name := ascii "ijexec.log"

/-- The path of the log file that a path asks for. -/
def logPath (path : Path) : Path :=
  let parent := match Path.parent? path with
    | none | some [] => Path.dot
    | some parent => parent
  Path.join parent ((Path.fileName? path).getD plainLogName)

/-- Opens a log file, which is made if it is not there, with the directories above it. -/
def openLog (path : Path) : DiskAction FileFault Unit :=
  tryCatch (Disk.extend path) fun fault => do
    match Path.parent? path with
    | none => throw fault
    | some parent => Disk.makeDirs parent
    Disk.extend path

/-- The status of a program that breaks off. -/
def brokenOff : Nat := 101

/-! ### Running -/

variable {σ : Type}

/-- Serves the host, messages coloured or not. -/
def serve (programs : Programs σ) (env : Environment) (colored : Bool) (warning : String)
    (input : Bytes) (s : System) : Report σ :=
  let config := (Config.default env s.home).override env
  let done := Host.run programs config s { reader := { rest := input } }
  { status := match done.answer with | .ok () => 0 | .error _ => 1
    output := done.channel.output.written
    errors := warning ++ match done.answer with | .ok () => "" | .error e => account colored e
    system := done.system
    filter := done.filter }

/-- What a run leaves that breaks off while it prepares. -/
def breakOff (errors : String) (s : System) : Report σ where
  status := brokenOff
  errors := errors
  system := s

/-- Prepares for logging, then serves the host. -/
def runFilter (programs : Programs σ) (env : Environment) (colored : Bool) (input : Bytes)
    (s : System) : Report σ :=
  let logging := ({} : Logging).override env
  match logWarning logging with
  | .error told => breakOff told s
  | .ok warning =>
    match logging.file with
    | none => serve programs env colored warning input s
    | some file =>
      match (openLog (logPath (.ofText file))).run s.disk with
      | (.ok (), disk) => serve programs env colored warning input { s with disk := disk }
      | (.error fault, disk) =>
        breakOff (warning ++ "opening the log file: " ++ fault.message ++ "\n")
          { s with disk := disk }

/-- Runs the program. -/
def run (programs : Programs σ) (args : List String) (env : Environment) (input : Bytes)
    (s : System) : Report σ :=
  match options? env args with
  | some .version => { status := 0, output := Utf8.ofText versionLine, system := s }
  | some (.run true noColor) => runFilter programs env (colored env noColor) input s
  | some (.run false _) | none => { status := 1, errors := usage, system := s }

end ImageScoring.CommandLine
