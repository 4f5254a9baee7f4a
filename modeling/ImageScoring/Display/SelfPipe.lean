import ImageScoring.Bytes
import ImageScoring.Display.Notifier

/-!
# The pipe behind notifications

A signal can interrupt the program anywhere, so its handler does next to nothing: it writes one
octet into a pipe whose writing end is published to the whole process, and whoever waits reads from
the other end. Only one pipe is published at a time. A channel owns its pipe and remembers the
dispositions that it replaced.

`ImageScoring.Display.Notifier` is what is seen of this from outside.
-/

namespace ImageScoring.SelfPipe

/-- The octet that stands for a notification. -/
def octet : Notification → UInt8
  | .ready => 0x52
  | .childExited => 0x43

/-- The notification that an octet is taken for. -/
def ofOctet (b : UInt8) : Notification :=
  if b = octet .ready then .ready else .childExited

/-- How many octets a pipe holds. -/
def capacity : Nat := 65536

/-- What the process has for its notifications. A pipe goes by the number of its writing end. -/
structure Plumbing where
  /-- The pipe that handlers write to. -/
  published : Option Nat := none
  dispositions : Dispositions := {}
  /-- The pipes that are open, and what has not been read from each. -/
  pipes : List (Nat × Bytes) := []
  deriving DecidableEq, Repr

/-- A channel: its pipe, and the dispositions to put back, in the order in which they were
replaced. -/
structure Channel where
  pipe : Nat
  previous : List (Notification × Disposition)
  deriving DecidableEq, Repr

/-- The least number that is not among those in use. -/
def unused (used : List Nat) : Nat :=
  ((List.range (used.length + 1)).find? (· ∉ used)).getD used.length

namespace Plumbing

/-- Opens a pipe, and tells its number. -/
def openPipe (p : Plumbing) : Nat × Plumbing :=
  let number := unused (p.pipes.map Prod.fst)
  (number, { p with pipes := (number, []) :: p.pipes })

/-- Closes both ends of a pipe; what has not been read is lost. -/
def closePipe (number : Nat) (p : Plumbing) : Plumbing :=
  { p with pipes := p.pipes.filter (·.1 ≠ number) }

/-- Writes an octet to a pipe, unless the pipe is full or not there. -/
def write (number : Nat) (b : UInt8) (p : Plumbing) : Plumbing :=
  { p with pipes := p.pipes.map fun pipe =>
      if pipe.1 = number ∧ pipe.2.length < capacity then (pipe.1, pipe.2 ++ [b]) else pipe }

/-- Reads an octet from a pipe; `none` where there is none to be read. -/
def read (number : Nat) (p : Plumbing) : Option (UInt8 × Plumbing) :=
  match p.pipes.lookup number with
  | some (b :: rest) =>
    some (b, { p with pipes := p.pipes.map fun pipe =>
      if pipe.1 = number then (pipe.1, rest) else pipe })
  | _ => none

/-- Publishes something else, provided that what is published is as expected. -/
def exchange (expected next : Option Nat) (p : Plumbing) : Option Plumbing :=
  if p.published = expected then some { p with published := next } else none

/-- Sets the disposition of the signal behind a notification, and tells the one that it replaces. -/
def install (signal : Notification) (disposition : Disposition) (p : Plumbing) :
    Disposition × Plumbing :=
  (p.dispositions.of signal, { p with dispositions := match signal with
    | .ready => { p.dispositions with ready := disposition }
    | .childExited => { p.dispositions with childExited := disposition } })

/-- The handler of both signals. -/
def handle (signal : Notification) (p : Plumbing) : Plumbing :=
  match p.published with
  | none => p
  | some number => p.write number (octet signal)

/-- A signal arrives. What the system does where no handler is installed is not told here. -/
def raise (signal : Notification) (p : Plumbing) : Plumbing :=
  if p.dispositions.of signal = .notify then p.handle signal else p

/-- The signals that a channel is about, in the order in which their handlers are installed. -/
def signals : List Notification := [.ready, .childExited]

/-- Installs the handlers, and tells the dispositions that they replace. -/
def installHandlers (p : Plumbing) : List (Notification × Disposition) × Plumbing :=
  signals.foldl (fun (previous, p) signal =>
    let (old, p) := p.install signal .notify
    (previous ++ [(signal, old)], p)) ([], p)

/-- Puts dispositions back, the one that was replaced last first. -/
def putBack (previous : List (Notification × Disposition)) (p : Plumbing) : Plumbing :=
  previous.reverse.foldl (fun p (signal, old) => (p.install signal old).2) p

/-- Arms a channel: opens a pipe and publishes it, which fails if one is published, and installs the
handlers. The pipe is closed where that fails. -/
def arm (p : Plumbing) : Except String Channel × Plumbing :=
  let (number, opened) := p.openPipe
  match opened.exchange none (some number) with
  | none => (.error Notifier.alreadyArmed, opened.closePipe number)
  | some published =>
    let (previous, p) := published.installHandlers
    (.ok ⟨number, previous⟩, p)

/-- Waits for the next notification of a channel; `none` where waiting would go on for ever. -/
def wait (c : Channel) (p : Plumbing) : Option (Notification × Plumbing) :=
  (p.read c.pipe).map fun (b, p) => (ofOctet b, p)

/-- Drops a channel: the dispositions are put back, and only then is the pipe taken from the
handlers and closed. -/
def drop (c : Channel) (p : Plumbing) : Plumbing :=
  let restored := p.putBack c.previous
  ((restored.exchange (some c.pipe) none).getD restored).closePipe c.pipe

end Plumbing

/-! ### Steps -/

/-- What can be done with channels, and what can happen to them. -/
inductive Step where
  | arm
  /-- The newest channel is dropped. -/
  | drop
  | raise (signal : Notification)
  /-- The newest channel is waited on. -/
  | wait
  deriving DecidableEq, Repr

/-- What comes of a step. -/
inductive Answer where
  | armed
  | refused (message : String)
  | dropped
  | raised
  | told (notification : Notification)
  /-- Waiting would go on for ever. -/
  | hung
  /-- There is no channel to be waited on or dropped. -/
  | unarmed
  deriving DecidableEq, Repr

/-- The plumbing, and the channels that there are, newest first. -/
structure Installation where
  plumbing : Plumbing := {}
  channels : List Channel := []
  deriving DecidableEq, Repr

namespace Installation

/-- Does a step. -/
def perform (p : Installation) : Step → Answer × Installation
  | .arm =>
    match p.plumbing.arm with
    | (.ok channel, plumbing) => (.armed, ⟨plumbing, channel :: p.channels⟩)
    | (.error message, plumbing) => (.refused message, { p with plumbing := plumbing })
  | .raise signal => (.raised, { p with plumbing := p.plumbing.raise signal })
  | .wait =>
    match p.channels with
    | [] => (.unarmed, p)
    | channel :: _ =>
      match p.plumbing.wait channel with
      | some (notification, plumbing) => (.told notification, { p with plumbing := plumbing })
      | none => (.hung, p)
  | .drop =>
    match p.channels with
    | [] => (.unarmed, p)
    | channel :: channels => (.dropped, ⟨p.plumbing.drop channel, channels⟩)

/-- Does one step after the other. -/
def performAll : List Step → Installation → List Answer × Installation
  | [], p => ([], p)
  | step :: steps, p =>
    let done := p.perform step
    let rest := performAll steps done.2
    (done.1 :: rest.1, rest.2)

end Installation

end ImageScoring.SelfPipe
