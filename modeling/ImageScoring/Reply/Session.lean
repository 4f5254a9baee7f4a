import ImageScoring.Error
import ImageScoring.Reply.Reader

/-!
# Sessions

A `Session` reads one reply, from `BEGIN` to the result, and hands every attribute to a sink as
soon as it is complete. A malformed reply ends the session and leaves a note for the next one,
which then starts at the next `BEGIN`. A sink may refuse an attribute; the session stays open, and
running it again goes on behind that attribute.
-/

namespace ImageScoring.Reply

/-- How far a session has come. -/
inductive Phase where
  | awaitBegin
  | inSession
  | done
  | failed
  deriving DecidableEq, Repr

/-- A session: how far it has come, and how many attributes its sink has taken. -/
structure Session where
  phase : Phase := .awaitBegin
  attributes : Nat := 0
  deriving DecidableEq, Repr

/-- What takes attributes: it changes a store of its own and may refuse. -/
abbrev Sink (ω : Type) := ω → Attribute → ω × Except Error Unit

/-- What a run of a session leaves: its answer, the session, the reader and the sink's store. -/
structure Run (ω : Type) where
  answer : Except Error Outcome
  session : Session
  reader : Reader
  store : ω

/-- The error that a fault of the stream is. -/
def faultError : ReadFault → Error
  | .hung => .hung
  | fault => .io fault.message

/-- The error of running a session that has ended. -/
def finishedError : Error := .io "protocol session already finished"

namespace Session

variable {ω : Type}

/-- The run that a fault of the stream ends. -/
def broken (s : Session) (fault : ReadFault) (r : Reader) (store : ω) : Run ω where
  answer := .error (faultError fault)
  session := s
  reader := r.drained
  store := store

/-- The run that a malformed reply ends; the next session has to find its beginning. -/
def malformed (s : Session) (error : FramingError) (r : Reader) (store : ω) : Run ω where
  answer := .ok (.framing error)
  session := { s with phase := .failed }
  reader := { r with resync := true }
  store := store

/-- Reads records up to the result, behind `BEGIN`; the sink has taken `count` attributes. -/
def records (sink : Sink ω) (count : Nat) (r : Reader) (store : ω) : Run ω :=
  match _h : r.record with
  | .error fault => broken ⟨.inSession, count⟩ fault r store
  | .ok (.opening, r') => malformed ⟨.inSession, count⟩ .duplicateBegin r' store
  | .ok (.malformed error, r') => malformed ⟨.inSession, count⟩ error r' store
  | .ok (.result value, r') => ⟨.ok (.completed value count), ⟨.done, count⟩, r', store⟩
  | .ok (.attr a, r') =>
    match sink store a with
    | (store, .ok ()) => records sink (count + 1) r' store
    | (store, .error e) => ⟨.error e, ⟨.inSession, count⟩, r', store⟩
termination_by r.rest.length
decreasing_by exact Reader.length_of_record_eq_attr _h

/-- Runs a session to the end of its reply, to a fault of the stream, or to the first attribute
that the sink refuses. -/
def run (sink : Sink ω) (s : Session) (r : Reader) (store : ω) : Run ω :=
  match s.phase with
  | .done | .failed => ⟨.error finishedError, s, r, store⟩
  | .inSession => records sink s.attributes r store
  | .awaitBegin =>
    if r.resync then
      let r := { r with resync := false }
      match r.seekBegin with
      | .error fault => broken s fault r store
      | .ok r => records sink s.attributes r store
    else
      match r.header with
      | .error fault => broken s fault r store
      | .ok (.opening, r) => records sink s.attributes r store
      | .ok (header, r) => malformed s (.missingBegin header.line) r store

end Session

end ImageScoring.Reply
