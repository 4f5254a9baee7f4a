import ImageScoring.Payload
import ImageScoring.Reply.Session
import ImageScoring.Request
import ImageScoring.System

/-!
# Workers

A worker is a process that takes requests and answers them, with its workspace and the lease of its
display. It is torn down once: killed, waited for, its display released and its workspace removed.
A request that cannot be sent and a reply that cannot be read make it an error that tells how the
process ended; the end is collected at that moment, and told once.
-/

namespace ImageScoring

/-- A worker, and what belongs to it until it is torn down. -/
structure Worker (σ : Type) where
  process : Process σ
  /-- What the last reply leaves for the next, as in a reader. -/
  skipBlank : Bool := false
  resync : Bool := false
  /-- The end of the process has been collected. -/
  reaped : Bool := false
  tornDown : Bool := false
  lease : Option Lease
  workspace : Option Workspace

namespace Worker

variable {σ ω : Type}

/-- The error of using a worker that was torn down. -/
def tornDownError : Error := .workerGone "worker has already been torn down"

/-- The words for what a worker was needed for. -/
def sending : String := "sending the request"

def reading : String := "reading the reply"

/-- What a write is refused with when nobody can read it any more. -/
def brokenPipe : String := "Broken pipe (os error 32)"

/-! ### Starting -/

/-- Lets go of what a worker would have owned. -/
def letGo (workspace : Workspace) (lease : Lease) (s : System) : System :=
  { s with
    disk := workspace.remove s.disk
    displays := (lease.release s.displays).2 }

/-- A worker of a process that was started. A process without both pipes is of no use: it is killed,
and nothing is left of it. -/
def adopt (process : Process σ) (captured : Bool) (workspace : Workspace) (lease : Lease)
    (s : System) : Except Error (Worker σ) × System :=
  if captured then
    (.ok { process := process, lease := some lease, workspace := some workspace }, s)
  else (.error (.spawn "worker stdio was not captured"), letGo workspace lease s)

/-- Starts a worker in its workspace, on a display. -/
def spawn (programs : Programs σ) (command : Command) (workspace : Workspace) (lease : Lease)
    (s : System) : Except Error (Worker σ) × System :=
  let launch : Launch := ⟨command, workspace.workerDir, lease.address⟩
  match command.started (programs.startWorker s.disk launch) with
  | .error fault =>
    (.error (.spawn (command.program ++ ": " ++ fault.message)), letGo workspace lease s)
  | .ok state =>
    adopt { state := state } true workspace lease
      { s with launches := s.launches ++ [launch] }

/-! ### Asking whether it runs -/

/-- Asks how the process ended and collects that; told is nothing while it runs. -/
def collect (program : Program σ) (w : Worker σ) : Worker σ × Option ProcessEnd :=
  let (process, ended) := w.process.poll program
  ({ w with process := process, reaped := ended.isSome }, ended)

/-- Whether the process still runs. -/
def isRunning (program : Program σ) (w : Worker σ) : Worker σ × Bool :=
  if w.reaped then (w, false)
  else
    let (w, ended) := w.collect program
    (w, ended.isNone)

/-- How often it is asked, at most, whether a process that failed has ended: it may be about to. -/
def graceLooks : Nat := 21

/-- Asks how the process ended until that is told, at most `looks` times. -/
def collectWithin (program : Program σ) : (looks : Nat) → Worker σ → Worker σ × Option ProcessEnd
  | 0, w => (w, none)
  | looks + 1, w =>
    match w.collect program with
    | (w, some ended) => (w, some ended)
    | (w, none) => collectWithin program looks w

theorem reaped_collect (program : Program σ) (w : Worker σ) :
    (w.collect program).1.reaped = (w.collect program).2.isSome := rfl

/-- What one look keeps is kept by all of them: they go on only while no end is told. -/
theorem collectWithin_keeps {P : Worker σ → Prop} {program : Program σ}
    (hcollect : ∀ w : Worker σ, w.reaped = false → P w → P (w.collect program).1) (looks : Nat)
    {w : Worker σ} (hreaped : w.reaped = false) (h : P w) :
    P (w.collectWithin program looks).1 := by
  induction looks generalizing w with
  | zero => exact h
  | succ looks ih =>
    have hlook := hcollect w hreaped h
    have hnone := reaped_collect program w
    rw [collectWithin]
    split
    · next hended =>
      rw [hended] at hlook
      exact hlook
    · next w₁ hended =>
      rw [hended] at hlook hnone
      exact ih hnone hlook

/-- Why the process no longer does what it should. Its end is told once. -/
def exitReason (program : Program σ) (w : Worker σ) : Worker σ × ExitReason :=
  if w.reaped then (w, .unknown)
  else
    match w.collectWithin program graceLooks with
    | (w, some ended) => (w, ended.reason)
    | (w, none) => (w, .stillRunning)

/-- The end of a process is asked for only if it is not known to have been collected. -/
theorem exitReason_cases (program : Program σ) (w : Worker σ) :
    w.reaped = true ∧ w.exitReason program = (w, .unknown) ∨
      w.reaped = false ∧ w.exitReason program = ((w.collectWithin program graceLooks).1,
        (w.collectWithin program graceLooks).2.elim .stillRunning ProcessEnd.reason) := by
  rw [exitReason]
  split
  · next hreaped => exact .inl ⟨hreaped, rfl⟩
  · next hreaped =>
    refine .inr ⟨by simpa using hreaped, ?_⟩
    rcases w.collectWithin program graceLooks with ⟨w', _ | ended⟩ <;> rfl

/-- The error of a worker that failed. -/
def gone (program : Program σ) (context detail : String) (w : Worker σ) : Worker σ × Error :=
  let (w, reason) := w.exitReason program
  (w, .workerGone (WorkerFailure.text ⟨reason, some context, some detail⟩))

/-! ### Requests and replies -/

/-- Sends a request to a process, whole or not at all. -/
def sendRequest (program : Program σ) (image name : Bytes) (process : Process σ) :
    Process σ × Except String Unit :=
  match [image, name].find? (Request.frameLimit ≤ ·.length) with
  | some content => (process, .error (Request.Fault.tooLong content.length).message)
  | none =>
    match process.send program (Request.encode image name) with
    | (process, true) => (process, .ok ())
    | (process, false) => (process, .error brokenPipe)

/-- Sends a request: the image and the name of the script. -/
def send (program : Program σ) (image name : Bytes) (w : Worker σ) :
    Worker σ × Except Error Unit :=
  if w.tornDown then (w, .error tornDownError)
  else
    match sendRequest program image name w.process with
    | (process, .ok ()) => ({ w with process := process }, .ok ())
    | (process, .error detail) =>
      match gone program sending detail { w with process := process } with
      | (w, e) => (w, .error e)

/-- The reader of what the process has written. -/
def reader (w : Worker σ) : Reader where
  rest := w.process.output
  ending := if w.process.outputEnds then .closed else .silent
  skipBlank := w.skipBlank
  resync := w.resync

/-- The worker after a reader has read. -/
def after (w : Worker σ) (r : Reader) : Worker σ :=
  { w with
    process := { w.process with output := r.rest }
    skipBlank := r.skipBlank
    resync := r.resync }

/-- Reads a reply of that form from a reader. -/
def readReply (form : ReplyForm) (sink : Reply.Sink ω) (r : Reader) (store : ω) : Reply.Run ω :=
  match form with
  | .framed => Reply.Session.run sink {} r store
  | .bare =>
    match r.bare with
    | .ok (outcome, r) => ⟨.ok outcome, {}, r, store⟩
    | .error fault => ⟨.error (Reply.faultError fault), {}, r.drained, store⟩

/-- Reads a reply, its attributes going to a sink. -/
def read (program : Program σ) (form : ReplyForm) (sink : Reply.Sink ω) (w : Worker σ) (store : ω) :
    Worker σ × ω × Except Error Reply.Outcome :=
  if w.tornDown then (w, store, .error tornDownError)
  else
    let w := { w with process := w.process.advance program }
    let run := readReply form sink w.reader store
    let w := w.after run.reader
    match run.answer with
    | .error (.io detail) =>
      match w.gone program reading detail with
      | (w, e) => (w, run.store, .error e)
    | answer => (w, run.store, answer)

/-! ### Teardown -/

/-- The error of waiting for an end that cannot be told. -/
def waitError : Error := .io "Invalid argument (os error 22)"

/-- Kills the process and waits for it, unless its end has been collected; releases the display
and removes the workspace. All of this is done even if the wait fails, as it does for an end that
cannot be told. A second teardown does nothing. -/
def teardown (program : Program σ) (w : Worker σ) (s : System) :
    Worker σ × System × Except Error Unit :=
  if w.tornDown then (w, s, .ok ())
  else
    let process := if w.reaped then w.process else w.process.kill program
    let told := w.reaped || process.ended.all ProcessEnd.isTellable
    let disk := w.workspace.elim s.disk fun workspace => workspace.remove s.disk
    let displays := w.lease.elim s.displays fun lease => (lease.release s.displays).2
    ({ w with
        process := process
        reaped := told
        tornDown := true
        lease := none
        workspace := none },
      { s with disk := disk, displays := displays },
      if told then .ok () else .error waitError)

/-- Drops a worker: it is torn down, and nobody is told what came of that. -/
def drop (program : Program σ) (w : Worker σ) (s : System) : Worker σ × System :=
  match w.teardown program s with
  | (w, s, _) => (w, s)

end Worker

end ImageScoring
