import ImageScoring.CommandLine

/-!
# The program

The command line as a process: it takes the arguments, the variables and the input that the
process is given, and writes both outputs. The input is read to its end before anything is
answered. The disk of the process is one in memory that begins empty, and no other program is at
hand.
-/

namespace ImageScoring.Main

/-- The variables that the options, the logging and the settings look at. -/
def variableNames : List String :=
  [CommandLine.noColorVariable, "FORCE_COLOR", "CLICOLOR_FORCE", "IGNORE_IS_TERMINAL", "TERM",
    "COLORTERM", "CLICOLOR", "CI", "HOME", "XDG_DATA_HOME", "IJEXEC_HOME", "IJEXEC_WORKER_ARCHIVE",
    "IJEXEC_JAVA", "IJEXEC_XVFB", "IJEXEC_MAX_DISPLAYS", "IJEXEC_DISPLAY", "IJEXEC_PROTOCOL",
    "IJEXEC_IMAGE_SOURCE", "IJEXEC_ON_FRAMING_ERROR", "IJEXEC_LOG", "RUST_LOG", "IJEXEC_LOG_LEVEL",
    "IJEXEC_LOG_FORMAT", "IJEXEC_LOG_FILE"]

/-- The environment of the process. -/
def environment : IO Environment := do
  let bindings ← variableNames.filterMapM fun name => do
    return (← IO.getEnv name).map fun value => (name, Utf8.ofText value)
  return ⟨bindings⟩

/-- How many octets are read at once. -/
def chunk : USize := 65536

/-- All octets that are still to come from a stream, after those read already. -/
partial def drain (stream : IO.FS.Stream) (before : ByteArray) : IO ByteArray := do
  let more ← stream.read chunk
  if more.isEmpty then return before
  drain stream (before ++ more)

/-- The input of the process, which is read only to serve a host. -/
def input (env : Environment) (args : List String) : IO Bytes := do
  match CommandLine.options? env args with
  | some (.run true _) => return (← drain (← IO.getStdin) .empty).toList
  | _ => return []

/-- The system of the process: an empty disk with one directory for temporary files. -/
def system : System :=
  let temporary : Name := ascii "tmp"
  { disk := ({} : Disk).put [temporary] (.dir Disk.plainMode)
    temporary := Path.join [Path.slash] temporary }

end ImageScoring.Main

open ImageScoring in
/-- Runs the command line; the status of the process is the one of the report. -/
def main (args : List String) : IO UInt32 := do
  let env ← Main.environment
  let report := CommandLine.run Programs.none args env (← Main.input env args) Main.system
  (← IO.getStdout).write report.output.toByteArray
  (← IO.getStderr).putStr report.errors
  return report.status.toUInt32
