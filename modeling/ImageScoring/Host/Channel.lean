import ImageScoring.Error
import ImageScoring.Host.Message
import ImageScoring.Output
import ImageScoring.Reply.Reader

/-!
# The host channel

Both directions of the talk with the host: a reader of what the host says, and an output for what
the filter says. Every operation leaves a channel, a failed one too, and the next one goes on from
there.
-/

namespace ImageScoring.Host

/-- How the talk with the host fails. -/
inductive Fault where
  | read (fault : ReadFault)
  | refused (refusal : String)
  | missingName
  | notUtf8 (what : String)
  | badCount (line : Bytes)
  | missingArgument (index : Nat)
  | badLength (line : Bytes)
  | unterminated
  | unknownCommand (command : String)
  deriving DecidableEq, Repr

/-- The wording of a fault. -/
def Fault.message : Fault → String
  | .read fault => fault.message
  | .refused refusal => refusal
  | .missingName => "missing filter name"
  | .notUtf8 what => what ++ " is not UTF-8"
  | .badCount line => "bad argument count '" ++ Utf8.toTextLossy line ++ "'"
  | .missingArgument index => "missing argument " ++ toString index
  | .badLength line => "bad string length '" ++ Utf8.toTextLossy line ++ "'"
  | .unterminated => "string not terminated by a newline"
  | .unknownCommand command => "unexpected command '" ++ command ++ "'"

/-- The error that a fault is. -/
def Fault.toError : Fault → Error
  | .read .hung => .hung
  | fault => .host fault.message

/-- Both directions of the talk. -/
structure Channel where
  reader : Reader
  output : Output := {}
  deriving DecidableEq, Repr

namespace Channel

/-- Takes something off the input. -/
def take {α : Type} (step : Reader → Except ReadFault (α × Reader)) (c : Channel) :
    Channel × Except Fault α :=
  match step c.reader with
  | .ok (a, r) => ({ c with reader := r }, .ok a)
  | .error fault => ({ c with reader := c.reader.drained }, .error (.read fault))

/-- The next line, `none` at the end of the input. -/
def line? (c : Channel) : Channel × Except Fault (Option Bytes) :=
  c.take fun r => match r.line? with
    | .ok (some (line, r)) => .ok (some line, r)
    | .ok none => .ok (none, r)
    | .error fault => .error fault

/-- The rest of a string whose length line has been read. -/
def stringAfter (lengthLine : Bytes) (c : Channel) : Channel × Except Fault (Option Bytes) :=
  if lengthLine.isEmpty then (c, .ok none)
  else
    match Count.ofLine? lengthLine with
    | none => (c, .error (.badLength lengthLine))
    | some length =>
      match c.take (Reader.payload length) with
      | (c, .error fault) => (c, .error fault)
      | (c, .ok content) =>
        match c.take Reader.terminator with
        | (c, .error fault) => (c, .error fault)
        | (c, .ok true) => (c, .ok (some content))
        | (c, .ok false) => (c, .error .unterminated)

/-- The next string, `none` for a missing value. -/
def string (c : Channel) : Channel × Except Fault (Option Bytes) :=
  match c.take Reader.line with
  | (c, .error fault) => (c, .error fault)
  | (c, .ok line) => c.stringAfter line

/-- The text of a string, which has to be UTF-8. -/
def text (what : String) (content : Bytes) : Except Fault String :=
  match Utf8.toText? content with
  | .ok text => .ok text
  | .error _ => .error (.notUtf8 what)

/-- `count` arguments, of which `acc` have been read, last one first. -/
def arguments (acc : List String) : (count : Nat) → Channel → Channel × Except Fault (List String)
  | 0, c => (c, .ok acc.reverse)
  | count + 1, c =>
    match c.string with
    | (c, .error fault) => (c, .error fault)
    | (c, .ok none) => (c, .error (.missingArgument acc.length))
    | (c, .ok (some content)) =>
      match text "argument" content with
      | .error fault => (c, .error fault)
      | .ok argument => arguments (argument :: acc) count c

/-- The start-up message behind the filter's name. A missing blob is an empty one. -/
def startupAfter (filterName : String) (c : Channel) : Channel × Except Fault Startup :=
  match c.take Reader.line with
  | (c, .error fault) => (c, .error fault)
  | (c, .ok line) =>
    match Count.ofLine? line with
    | none => (c, .error (.badCount line))
    | some count =>
      match c.arguments [] count with
      | (c, .error fault) => (c, .error fault)
      | (c, .ok args) =>
        match c.string with
        | (c, .error fault) => (c, .error fault)
        | (c, .ok blob) => (c, .ok ⟨filterName, args, blob.getD []⟩)

/-- The start-up message, `none` if the host closes the channel instead. -/
def startup (c : Channel) : Channel × Except Fault (Option Startup) :=
  match c.line? with
  | (c, .error fault) => (c, .error fault)
  | (c, .ok none) => (c, .ok none)
  | (c, .ok (some line)) =>
    match c.stringAfter line with
    | (c, .error fault) => (c, .error fault)
    | (c, .ok none) => (c, .error .missingName)
    | (c, .ok (some content)) =>
      match text "filter name" content with
      | .error fault => (c, .error fault)
      | .ok name =>
        match c.startupAfter name with
        | (c, .ok startup) => (c, .ok (some startup))
        | (c, .error fault) => (c, .error fault)

/-- The host's next command, `none` at the end of the input. -/
def command (c : Channel) : Channel × Except Fault (Option String) :=
  match c.line? with
  | (c, .ok line) => (c, .ok (line.map Utf8.toTextLossy))
  | (c, .error fault) => (c, .error fault)

/-- Says something to the host. -/
def send (message : Bytes) (c : Channel) : Channel × Except Fault Unit :=
  match c.output.write message with
  | (output, true) => ({ c with output := output }, .ok ())
  | (output, false) => ({ c with output := output }, .error (.refused output.refusal))

/-- Asks for an attribute and takes the answer. -/
def readAttribute (name : String) (c : Channel) : Channel × Except Fault (Option Bytes) :=
  match c.send (getAttribute name) with
  | (c, .ok ()) => c.string
  | (c, .error fault) => (c, .error fault)

/-- Sets an attribute. -/
def writeAttribute (name : String) (content : Bytes) (c : Channel) :
    Channel × Except Fault Unit :=
  c.send (setAttribute name content)

end Channel

end ImageScoring.Host
