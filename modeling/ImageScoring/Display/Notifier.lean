/-!
# Notifications of a display server

A display server tells its parent that its display is bound by a signal, and that it is not by
ending. Both signals are turned into notifications that can be waited for, through a channel of
which at most one is armed at a time. Arming installs handlers for both signals and keeps the
dispositions found; dropping the channel puts them back, and what was pending is lost.
-/

namespace ImageScoring

/-- What a channel tells. -/
inductive Notification where
  /-- A display server has bound its display. -/
  | ready
  /-- Some child process has ended. -/
  | childExited
  deriving DecidableEq, Repr

/-- What happens when a signal arrives. -/
inductive Disposition where
  /-- What the system does by itself. -/
  | initial
  | ignore
  /-- The signal becomes a notification. -/
  | notify
  deriving DecidableEq, Repr

/-- What happens when either signal arrives. -/
structure Dispositions where
  ready : Disposition := .initial
  childExited : Disposition := .initial
  deriving DecidableEq, Repr

namespace Dispositions

/-- What happens when the signal behind a notification arrives. -/
def of (d : Dispositions) : Notification → Disposition
  | .ready => d.ready
  | .childExited => d.childExited

/-- Both signals become notifications. -/
def notifying : Dispositions := ⟨.notify, .notify⟩

end Dispositions

/-- An armed channel: what is pending, oldest first, and the dispositions to put back. -/
structure NotifyChannel where
  pending : List Notification := []
  previous : Dispositions
  deriving DecidableEq, Repr

/-- The dispositions in force, and the channel that is armed, if any. -/
structure Notifier where
  dispositions : Dispositions := {}
  channel : Option NotifyChannel := none
  deriving DecidableEq, Repr

namespace Notifier

/-- The wording of the refusal to arm a second channel. -/
def alreadyArmed : String := "a display notification channel is already armed"

/-- Arms a channel, unless one is armed. -/
def arm (n : Notifier) : Except String Notifier :=
  match n.channel with
  | some _ => .error alreadyArmed
  | none => .ok ⟨.notifying, some { previous := n.dispositions }⟩

/-- A signal arrives. -/
def raise (signal : Notification) (n : Notifier) : Notifier :=
  match n.channel, n.dispositions.of signal with
  | some channel, .notify =>
    { n with channel := some { channel with pending := channel.pending ++ [signal] } }
  | _, _ => n

/-- The oldest notification that is pending; `none` where waiting would go on for ever. -/
def wait (n : Notifier) : Option (Notification × Notifier) :=
  match n.channel with
  | some ⟨first :: pending, previous⟩ =>
    some (first, { n with channel := some ⟨pending, previous⟩ })
  | _ => none

/-- Drops the armed channel. -/
def drop (n : Notifier) : Notifier :=
  match n.channel with
  | some channel => ⟨channel.previous, none⟩
  | none => n

end Notifier

end ImageScoring
