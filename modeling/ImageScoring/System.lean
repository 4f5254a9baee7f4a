import ImageScoring.Display.Server
import ImageScoring.Files.Action
import ImageScoring.Workspace

/-!
# The system

What a filter works on: a disk with a directory for temporary files, display servers, and the
workers that were started. Which programs there are, and what they do, is told by `Programs`.
-/

namespace ImageScoring

/-- The start of a worker: its command, the path of the directory that it runs in, and the address
of its display. -/
structure Launch where
  command : Command
  directory : Path
  display : String
  deriving DecidableEq, Repr

/-- What a filter works on. -/
structure System where
  disk : Disk
  /-- The directory for temporary files. -/
  temporary : Path
  /-- The home directory of the user's account, if there is such an account. -/
  home : Option Path := some Config.superuserHome
  displays : Displays := {}
  /-- The workers that were started, oldest first. -/
  launches : List Launch := []
  deriving DecidableEq, Repr

/-- What happens when programs are started: a worker that can be started begins in some state and
does what its program says; a display server causes events. -/
structure Programs (σ : Type) where
  worker : Program σ
  startWorker : Disk → Launch → Except FileFault σ
  startServer : Disk → ServerStart

namespace Disk

/-- The fault of starting a program, where no file can be run: what is there may not be, and what
is not there is missing. A path that is relative begins at `directory`. A name without a slash is
looked for in directories of programs, where only the names that every directory has are found. -/
def launchFault (d : Disk) (directory : Path) (command : Command) : FileFault :=
  let program := Utf8.ofText command.program
  if Path.slash ∈ program then
    match d.status true (Path.join directory program) with
    | .ok _ => .denied
    | .error fault => fault
  else if nameLimit < program.length then .nameTooLong
  else if program = Path.dot ∨ program = Path.dotDot then .denied
  else .missing

end Disk

/-- The programs of a system that has none. -/
def Programs.none : Programs Unit where
  worker := fun _ _ => ([], ())
  startWorker d launch := .error (d.launchFault launch.directory launch.command)
  startServer d _ command := .error (d.launchFault [] command)

end ImageScoring
