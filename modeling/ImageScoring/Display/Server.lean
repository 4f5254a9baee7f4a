import ImageScoring.Display.Notifier
import ImageScoring.Display.Template
import ImageScoring.Error
import ImageScoring.Files.Fault
import ImageScoring.Text.Quoted
import ImageScoring.Worker.Process

/-!
# Display servers

A worker needs a display. Unless one is fixed, display numbers are tried from zero on: a server is
started for the number, with the signal of readiness ignored, which is what makes the server send
that signal to its parent once its display is bound. A server that cannot bind its display ends
instead, and the next number is tried.

What happens while a server is waited for is told in groups: one group happens before each look for
a notification, and a group may be empty. So it may happen at any moment, and signals may be pending
together, in any order.
-/

namespace ImageScoring

-- Sums start from the literal zero.
attribute [local instance (high)] Zero.ofOfNat0

/-- What happens while a display server is waited for. -/
inductive ServerEvent where
  /-- The server signals that its display is bound. -/
  | ready
  | ended (ended : ProcessEnd)
  /-- Some other child process ends. -/
  | otherEnded
  deriving DecidableEq, Repr

/-- A display server that was started. -/
structure Server where
  display : Nat
  command : Command
  /-- It was started with the signal of readiness ignored. -/
  ignoresReady : Bool := true
  /-- It has signalled that its display is bound. -/
  signalled : Bool := false
  ended : Option ProcessEnd := none
  /-- Its end has been collected. -/
  collected : Bool := false
  deriving DecidableEq, Repr

/-- Whether a server runs. -/
def Server.isRunning (s : Server) : Bool :=
  s.ended.isNone

/-- The server after it was killed and waited for. -/
def Server.killed (s : Server) : Server :=
  { s with ended := s.ended.or (some (.signaled 9 false)), collected := true }

/-- What starts the server of a display, and what happens then. -/
abbrev ServerStart := Nat → Command → Except FileFault (List (List ServerEvent))

/-- The notifications of display servers, and the servers that were started, oldest first. -/
structure Displays where
  notifier : Notifier := {}
  servers : List Server := []
  deriving DecidableEq, Repr

/-- The use of a display, and which of the servers was started for it. -/
structure Lease where
  display : Nat
  server : Option Nat := none
  deriving DecidableEq, Repr

namespace Lease

/-- What tells a worker its display. -/
def address (l : Lease) : String :=
  "localhost:" ++ toString l.display

/-- Whether there is a server to be stopped. -/
def ownsServer (l : Lease) : Bool :=
  l.server.isSome

/-- Ends the use of a display: its server is killed and waited for, the first time. -/
def release (l : Lease) (d : Displays) : Lease × Displays :=
  match l.server with
  | none => (l, d)
  | some index =>
    ({ l with server := none }, { d with servers := d.servers.modify index Server.killed })

end Lease

/-- What became of a server that was waited for. -/
inductive Probe where
  | ready
  | ended
  | hung
  deriving DecidableEq, Repr

namespace Displays

/-- Something happens to the server of that index, or to another child process. -/
def happen (index : Nat) (d : Displays) : ServerEvent → Displays
  | .ready =>
    { notifier := d.notifier.raise .ready
      servers := d.servers.modify index fun s => { s with signalled := true } }
  | .ended ended =>
    { notifier := d.notifier.raise .childExited
      servers := d.servers.modify index fun s => { s with ended := s.ended.or (some ended) } }
  | .otherEnded => { d with notifier := d.notifier.raise .childExited }

/-- The next notification, and the groups that have not happened by then; `none` if none comes. -/
def await (index : Nat) : (groups : List (List ServerEvent)) → Displays →
    Option (Notification × List (List ServerEvent)) × Displays
  | [], d =>
    match d.notifier.wait with
    | some (notification, notifier) => (some (notification, []), { d with notifier := notifier })
    | none => (none, d)
  | group :: groups, d =>
    let d := group.foldl (happen index) d
    match d.notifier.wait with
    | some (notification, notifier) =>
      (some (notification, groups), { d with notifier := notifier })
    | none => await index groups d

/-- Waits until the server of that index is ready or has ended; `fuel` bounds the notifications.
A notification that a child process has ended may be about another one. -/
def probeWithin (index : Nat) : (fuel : Nat) → (groups : List (List ServerEvent)) → Displays →
    Probe × Displays
  | 0, _, d => (.hung, d)
  | fuel + 1, groups, d =>
    match d.await index groups with
    | (none, d) => (.hung, d)
    | (some (.ready, _), d) => (.ready, d)
    | (some (.childExited, groups), d) =>
      match (d.servers[index]?).bind Server.ended with
      | some _ =>
        (.ended, { d with servers := d.servers.modify index fun s => { s with collected := true } })
      | none => probeWithin index fuel groups d

/-- How many notifications can come. -/
def pendingWith (groups : List (List ServerEvent)) (d : Displays) : Nat :=
  (groups.map List.length).sum + (d.notifier.channel.elim 0 fun c => c.pending.length)

/-- Waits until the server of that index is ready or has ended. -/
def probe (index : Nat) (groups : List (List ServerEvent)) (d : Displays) : Probe × Displays :=
  d.probeWithin index (d.pendingWith groups + 1) groups

/-- The error of a server that cannot be started. -/
def launchError (command : Command) (display : Nat) (fault : FileFault) : Error :=
  let shown := if 0 ∈ Utf8.ofText command.program then "<string-with-nul>" else command.program
  .display ("launching " ++ Text.quoted shown ++ " for display " ++ toString display ++ ": " ++
    fault.message)

/-- Tries `count` displays from `display` on, one after the other. -/
def tryFrom (start : ServerStart) (server : Command) (display : Nat) :
    (count : Nat) → Displays → Except Error (Option Lease) × Displays
  | 0, d => (.ok none, d)
  | count + 1, d =>
    let command := Template.command server display
    match command.started (start display command) with
    | .error fault => (.error (launchError command display fault), d)
    | .ok groups =>
      let index := d.servers.length
      match probe index groups { d with servers := d.servers ++ [{ display, command }] } with
      | (.ready, d) => (.ok (some ⟨display, some index⟩), d)
      | (.hung, d) => (.error .hung, d)
      | (.ended, d) => tryFrom start server (display + 1) count d

/-- Takes the first display that is free among `candidates` ones. The channel for notifications is
armed meanwhile. -/
def allocate (start : ServerStart) (server : Command) (candidates : Nat) (d : Displays) :
    Except Error Lease × Displays :=
  match d.notifier.arm with
  | .error message => (.error (.display ("arming notification channel: " ++ message)), d)
  | .ok notifier =>
    let (answer, d) := tryFrom start server 0 candidates { d with notifier := notifier }
    let d := { d with notifier := d.notifier.drop }
    match answer with
    | .error e => (.error e, d)
    | .ok (some lease) => (.ok lease, d)
    | .ok none => (.error (.displayExhausted candidates), d)

end Displays

end ImageScoring
