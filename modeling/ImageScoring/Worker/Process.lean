import ImageScoring.Bytes
import ImageScoring.Worker.Exit

/-!
# Processes

A process as its parent sees it: an input that takes what is sent, an output that gives what can be
read, and an end. What it does is told by a `Program`: whenever the parent turns to the process,
the program says what the process has done since, given its unread input. So whatever a process
does, and at whatever moment it ends, there is a program for it.
-/

namespace ImageScoring

/-- How a process ends. -/
inductive ProcessEnd where
  | exited (code : Int)
  /-- By the signal of that number. -/
  | signaled (number : Int) (core : Bool)
  deriving DecidableEq, Repr

/-- The end of a process that leaves with a code, of which its parent is told the low eight bits. -/
def ProcessEnd.leaving (code : Int) : ProcessEnd :=
  .exited (code % 256)

/-- What is told of an end: nothing useful if the signal has no name. -/
def ProcessEnd.reason : ProcessEnd → ExitReason
  | .exited code => .ofStatus (.exited code)
  | .signaled number core =>
    match Signal.ofNumber? number with
    | some signal => .ofStatus (.signaled signal core)
    | none => .unknown

/-- Whether an end can be told: it cannot be if its signal has no name. -/
def ProcessEnd.isTellable : ProcessEnd → Bool
  | .exited _ => true
  | .signaled number _ => (Signal.ofNumber? number).isSome

/-- Something a process does. -/
inductive Act where
  /-- Takes octets off its input. -/
  | consume (count : Nat)
  /-- Writes to its output. -/
  | emit (bytes : Bytes)
  | closeInput
  | closeOutput
  | stop (ended : ProcessEnd)
  deriving DecidableEq, Repr

/-- What a process does next, by its own state and its unread input, and its state after that. -/
abbrev Program (σ : Type) := σ → Bytes → List Act × σ

/-- Something a parent does to a process by its number. -/
inductive Call where
  | kill
  /-- Asks whether it has ended; told is whether it had. -/
  | poll (ended : Bool)
  /-- Waits until it has ended. -/
  | wait
  deriving DecidableEq, Repr

/-- Whether a call collects the end of a process, whose number means nothing after that. -/
def Call.collects : Call → Bool
  | .kill => false
  | .poll ended => ended
  | .wait => true

/-- A process. -/
structure Process (σ : Type) where
  state : σ
  unread : Bytes := []
  inputOpen : Bool := true
  /-- What it has written and nobody has read. -/
  output : Bytes := []
  outputOpen : Bool := true
  ended : Option ProcessEnd := none
  /-- What its parent has done to it, last call last. -/
  calls : List Call := []

namespace Process

variable {σ : Type}

/-- Whether there still is such a process: it has not ended, or its end has not been collected. -/
def present (proc : Process σ) : Bool :=
  !proc.calls.any Call.collects

/-- The process after an act; none comes after its end. -/
def perform (proc : Process σ) (act : Act) : Process σ :=
  match proc.ended with
  | some _ => proc
  | none =>
    match act with
    | .consume count => { proc with unread := proc.unread.drop count }
    | .emit bytes => if proc.outputOpen then { proc with output := proc.output ++ bytes } else proc
    | .closeInput => { proc with inputOpen := false }
    | .closeOutput => { proc with outputOpen := false }
    | .stop ended => { proc with ended := some ended }

/-- The process after what it does before its parent turns to it. -/
def advance (program : Program σ) (proc : Process σ) : Process σ :=
  match proc.ended with
  | some _ => proc
  | none =>
    let (acts, state) := program proc.state proc.unread
    acts.foldl perform { proc with state := state }

/-- Sends something to the process; told is whether it could be sent. -/
def send (program : Program σ) (proc : Process σ) (bytes : Bytes) : Process σ × Bool :=
  let proc := proc.advance program
  if proc.inputOpen && proc.ended.isNone then
    (advance program { proc with unread := proc.unread ++ bytes }, true)
  else (proc, false)

/-- Whether the output ends behind what can be read of it. -/
def outputEnds (proc : Process σ) : Bool :=
  !proc.outputOpen || proc.ended.isSome

/-- Asks whether the process has ended. -/
def poll (program : Program σ) (proc : Process σ) : Process σ × Option ProcessEnd :=
  let proc := proc.advance program
  ({ proc with calls := proc.calls ++ [.poll proc.ended.isSome] }, proc.ended)

/-- Kills the process and waits for its end. -/
def kill (program : Program σ) (proc : Process σ) : Process σ :=
  let proc := proc.advance program
  { proc with
    ended := proc.ended.or (some (.signaled 9 false))
    calls := proc.calls ++ [.kill, .wait] }

end Process

end ImageScoring
