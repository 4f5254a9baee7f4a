import ImageScoring.Filter
import ImageScoring.Host.Channel

/-!
# Serving the host

A filter is started as the host's start-up message says, and the host is told that it is ready.
Then every command to evaluate is answered by a score, until the host shuts the filter down or
closes the channel. An object that cannot be scored gets the score minus one, unless the talk with
the host itself has failed. The filter is finished in every case.
-/

namespace ImageScoring.Host

/-- The object that the host is asking about, reached through the channel. -/
def remoteObject : ObjectStore Channel where
  read name c :=
    match c.readAttribute name with
    | (c, .ok value) => (c, .ok value)
    | (c, .error fault) => (c, .error fault.toError)
  write name value c :=
    match c.writeAttribute name value with
    | (c, .ok ()) => (c, .ok ())
    | (c, .error fault) => (c, .error fault.toError)

/-- A command of the host. -/
inductive Command where
  | evaluate
  | shutdown
  | other (text : String)
  deriving DecidableEq, Repr

/-- The command that a line is. -/
def Command.ofText (text : String) : Command :=
  if text = "evaluate" then .evaluate
  else if text = "shutdown" then .shutdown
  else .other text

/-- Whether an error ends the service: the talk with the host has failed, or everything has. -/
def endsService : Error → Bool
  | .host _ | .hung => true
  | e => e.isFatal

variable {σ : Type}

/-- What serving leaves: its answer, the filter, the system and the channel. -/
structure Served (σ : Type) where
  answer : Except Error Unit
  filter : Filter σ
  system : System
  channel : Channel

/-- Answers the host's commands; `fuel` bounds how many there are. -/
def serveWithin (programs : Programs σ) : (fuel : Nat) → Filter σ → System → Channel → Served σ
  | 0, f, s, c => ⟨.ok (), f, s, c⟩
  | fuel + 1, f, s, c =>
    match c.command with
    | (c, .error fault) => ⟨.error fault.toError, f, s, c⟩
    | (c, .ok none) => ⟨.ok (), f, s, c⟩
    | (c, .ok (some line)) =>
      match Command.ofText line with
      | .shutdown => ⟨.ok (), f, s, c⟩
      | .other text => ⟨.error (Fault.unknownCommand text).toError, f, s, c⟩
      | .evaluate =>
        let e := f.evaluate programs remoteObject c s
        let answered (score : Int) : Served σ :=
          match e.object.send (result score) with
          | (c, .error fault) => ⟨.error fault.toError, e.filter, e.system, c⟩
          | (c, .ok ()) => serveWithin programs fuel e.filter e.system c
        match e.answer with
        | .ok score => answered score
        | .error error =>
          if endsService error then ⟨.error error, e.filter, e.system, e.object⟩
          else answered sentinelScore

/-- Answers the host's commands: every one takes a line of the input. -/
def serve (programs : Programs σ) (f : Filter σ) (s : System) (c : Channel) : Served σ :=
  serveWithin programs (c.reader.rest.length + 1) f s c

/-- Tells the host that the filter is ready, and serves it. -/
def welcome (programs : Programs σ) (f : Filter σ) (s : System) (c : Channel) : Served σ :=
  match c.send ready with
  | (c, .error fault) => ⟨.error fault.toError, f, s, c⟩
  | (c, .ok ()) => serve programs f s c

/-- What running a filter leaves: its answer, the filter if one was started, the system and the
channel. -/
structure Finished (σ : Type) where
  answer : Except Error Unit
  filter : Option (Filter σ)
  system : System
  channel : Channel

/-- Runs a filter for the host, from its start-up message to the end. -/
def run (programs : Programs σ) (config : Config) (s : System) (c : Channel) : Finished σ :=
  match c.startup with
  | (c, .error fault) => ⟨.error fault.toError, none, s, c⟩
  | (c, .ok none) => ⟨.ok (), none, s, c⟩
  | (c, .ok (some startup)) =>
    match Filter.start programs config startup.filterName startup.args startup.blob s with
    | (.error e, s) => ⟨.error e, none, s, c⟩
    | (.ok f, s) =>
      let served := welcome programs f s c
      match served.filter.finish programs served.system with
      | (f, s, finished) => ⟨served.answer.bind fun () => finished, some f, s, served.channel⟩

end ImageScoring.Host
