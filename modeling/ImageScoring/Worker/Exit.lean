/-!
# How a process ends

What the system tells of a process that was waited for, and the words in which the end of a worker
is reported.
-/

namespace ImageScoring

/-- The signals that have a name, in the order of their numbers, which begin at one. -/
def signalNames : List String :=
  ["SIGHUP", "SIGINT", "SIGQUIT", "SIGILL", "SIGTRAP", "SIGABRT", "SIGBUS", "SIGFPE", "SIGKILL",
    "SIGUSR1", "SIGSEGV", "SIGUSR2", "SIGPIPE", "SIGALRM", "SIGTERM", "SIGSTKFLT", "SIGCHLD",
    "SIGCONT", "SIGSTOP", "SIGTSTP", "SIGTTIN", "SIGTTOU", "SIGURG", "SIGXCPU", "SIGXFSZ",
    "SIGVTALRM", "SIGPROF", "SIGWINCH", "SIGIO", "SIGPWR", "SIGSYS"]

/-- A signal that has a name. -/
structure Signal where
  number : Nat
  number_pos : 0 < number := by decide
  number_le : number ≤ 31 := by decide
  deriving DecidableEq, Repr

namespace Signal

/-- The signal of a number, if it has a name. -/
def ofNumber? (number : Int) : Option Signal :=
  match number with
  | .ofNat n => if h : 0 < n ∧ n ≤ 31 then some ⟨n, h.1, h.2⟩ else none
  | .negSucc _ => none

/-- The signal that no process survives. -/
def kill : Signal where
  number := 9

/-- The name of a signal. -/
def name (s : Signal) : String :=
  signalNames.getD (s.number - 1) ""

end Signal

/-- What waiting for a process tells. -/
inductive WaitStatus where
  | exited (code : Int)
  | signaled (signal : Signal) (core : Bool)
  | stopped (signal : Signal)
  | continued
  /-- A stop at a system call, which a tracer sees. -/
  | traced
  | alive
  deriving DecidableEq, Repr

/-- Why a worker is no longer there. -/
inductive ExitReason where
  | exited (code : Int)
  | signaled (signal : Signal)
  | stillRunning
  /-- Its end was told before, or nothing useful was told. -/
  | unknown
  deriving DecidableEq, Repr

namespace ExitReason

/-- The reason that a wait status gives. -/
def ofStatus : WaitStatus → ExitReason
  | .exited code => .exited code
  | .signaled signal _ => .signaled signal
  | .alive => .stillRunning
  | .stopped _ | .continued | .traced => .unknown

def isSuccess (reason : ExitReason) : Bool :=
  reason = .exited 0

/-- The reason in words. -/
def text : ExitReason → String
  | .exited code => "exited with code " ++ toString code
  | .signaled signal =>
    if signal = .kill then "was killed (SIGKILL)" else "was killed by signal " ++ signal.name
  | .stillRunning => "is still running"
  | .unknown => "stopped for an unknown reason"

end ExitReason

/-- The report of a worker's failure: the reason, what was being done, and what came of it. -/
structure WorkerFailure where
  reason : ExitReason
  context : Option String := none
  detail : Option String := none
  deriving DecidableEq, Repr

/-- The report in words. -/
def WorkerFailure.text (failure : WorkerFailure) : String :=
  "worker " ++ failure.reason.text ++
    (failure.context.elim "" fun context => " while " ++ context) ++
    (failure.detail.elim "" fun detail => ": " ++ detail)

end ImageScoring
