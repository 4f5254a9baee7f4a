import ImageScoring.Proofs.Worker.Answering
import ImageScoring.Proofs.Worker.Collection

/-!
# Workers that were asked more

Asking whether a worker runs is meant to be an observation, but it collects the end of the process
if it comes first, and keeps nothing of it. `Follows` relates a worker that was asked to one that
was not: they differ in their calls and in what is known of the end of the process, and in nothing
else. Each operation keeps that, and its two answers differ only in that the end is not told
(`matched_perform`).
-/

namespace ImageScoring

variable {σ ω : Type} {program : Program σ}

namespace Process

variable {proc proc' : Process σ}

/-! ### Processes apart from their calls -/

/-- The process as if it had never been called. -/
def uncalled (proc : Process σ) : Process σ :=
  { proc with calls := [] }

theorem uncalled_perform (proc : Process σ) (act : Act) :
    (proc.perform act).uncalled = proc.uncalled.perform act := by
  unfold perform uncalled
  dsimp only
  split
  · rfl
  · cases act with
    | emit bytes =>
      dsimp only
      split <;> rfl
    | _ => rfl

theorem uncalled_foldl (acts : List Act) (proc : Process σ) :
    (acts.foldl perform proc).uncalled = acts.foldl perform proc.uncalled := by
  induction acts generalizing proc with
  | nil => rfl
  | cons act acts ih =>
    rw [List.foldl_cons, List.foldl_cons, ih, uncalled_perform]

/-- What a process does by itself does not depend on its calls. -/
theorem uncalled_advance (program : Program σ) (proc : Process σ) :
    (proc.advance program).uncalled = proc.uncalled.advance program := by
  have hended : proc.uncalled.ended = proc.ended := rfl
  rw [advance, advance, hended]
  split
  · rfl
  · exact uncalled_foldl _ _

theorem uncalled_send (program : Program σ) (proc : Process σ) (bytes : Bytes) :
    proc.uncalled.send program bytes =
      ((proc.send program bytes).1.uncalled, (proc.send program bytes).2) := by
  have hopen : (proc.uncalled.advance program).inputOpen = (proc.advance program).inputOpen := by
    rw [← uncalled_advance]
    rfl
  have hended : (proc.uncalled.advance program).ended = (proc.advance program).ended := by
    rw [← uncalled_advance]
    rfl
  rw [send, send, hopen, hended]
  split
  · rw [uncalled_advance, ← uncalled_advance program proc]
    rfl
  · rw [uncalled_advance]

theorem uncalled_kill (program : Program σ) (h : proc.uncalled = proc'.uncalled) :
    (proc.kill program).uncalled = (proc'.kill program).uncalled := by
  have hadvance : (proc.advance program).uncalled = (proc'.advance program).uncalled := by
    rw [uncalled_advance, h, uncalled_advance]
  have hended : (proc.advance program).ended = (proc'.advance program).ended :=
    (congrArg Process.ended hadvance :)
  have hkill (p : Process σ) : (p.kill program).uncalled =
      { (p.advance program).uncalled with
        ended := (p.advance program).ended.or (some (.signaled 9 false)) } := rfl
  rw [hkill, hkill, hadvance, hended]

/-- To kill a process that has ended is only to call it. -/
theorem kill_of_ended (h : proc.ended.isSome = true) :
    (proc.kill program).uncalled = proc.uncalled ∧ (proc.kill program).ended = proc.ended := by
  obtain ⟨ended, hended⟩ := Option.isSome_iff_exists.mp h
  have hkill : (proc.kill program).ended = proc.ended := by
    rw [kill, advance_of_ended h]
    dsimp only
    rw [hended]
    rfl
  refine ⟨?_, hkill⟩
  have huncalled : (proc.kill program).uncalled =
      { (proc.advance program).uncalled with ended := (proc.kill program).ended } := rfl
  rw [huncalled, hkill, advance_of_ended h]
  rfl

end Process

namespace Worker

/-! ### Operations -/

/-- What is done with a worker besides asking whether it runs. -/
inductive Operation (ω : Type) where
  | send (image name : Bytes)
  | read (form : ReplyForm) (sink : Reply.Sink ω)
  | teardown

/-- What comes of an operation. -/
inductive Answer where
  | sent (told : Except Error Unit)
  | answered (told : Except Error Reply.Outcome)
  | tornDown (told : Except Error Unit)
  deriving DecidableEq

/-- A worker of a system, and what its attributes are stored in. -/
structure Scene (σ ω : Type) where
  worker : Worker σ
  system : System
  store : ω

/-- The scene after an operation, and what came of that. -/
def Operation.perform (program : Program σ) (scene : Scene σ ω) :
    Operation ω → Scene σ ω × Answer
  | send image name =>
    let (w, told) := scene.worker.send program image name
    ({ scene with worker := w }, .sent told)
  | read form sink =>
    let (w, store, told) := scene.worker.read program form sink scene.store
    ({ scene with worker := w, store := store }, .answered told)
  | teardown =>
    let (w, s, told) := scene.worker.teardown program scene.system
    ({ scene with worker := w, system := s }, .tornDown told)

/-! ### Workers that differ in what was asked -/

/-- The worker as if its process had never been called. -/
def unasked (w : Worker σ) : Worker σ :=
  { w with process := w.process.uncalled, reaped := false }

/-- A worker that was asked more than another one. Of the end of the process it knows at least as
much, and nothing that is not so. -/
structure Follows (x y : Worker σ) : Prop where
  unasked : x.unasked = y.unasked
  known : y.reaped = true → x.reaped = true
  ended : x.reaped = true → x.process.ended.isSome = true

/-- An error that tells nothing of the end of the worker. -/
def unknownError (context detail : String) : Error :=
  .workerGone (WorkerFailure.text ⟨.unknown, some context, some detail⟩)

/-- The second error is the first one, or it does not tell the end that the first one tells. -/
inductive Dims : Error → Error → Prop where
  | same {e : Error} : Dims e e
  | ended (ended : ProcessEnd) (context detail : String) :
      Dims (endError ended context detail) (unknownError context detail)

/-- The second answer is the first one, or an error that does not tell what the first one tells. Or
told is that all is well where waiting for the end has failed. -/
inductive Dimmed : Answer → Answer → Prop where
  | same {answer : Answer} : Dimmed answer answer
  | sent {e e' : Error} : Dims e e' → Dimmed (.sent (.error e)) (.sent (.error e'))
  | answered {e e' : Error} : Dims e e' → Dimmed (.answered (.error e)) (.answered (.error e'))
  | tornDown : Dimmed (.tornDown (.error waitError)) (.tornDown (.ok ()))

/-- How two workers, of which one was asked more, come out of the same thing with two answers. If as
much was known of the end in both, the answers are the same, and as much is known. -/
structure Matched (x y x' y' : Worker σ) (answer answer' : Answer) : Prop where
  follows : Follows x' y'
  dimmed : Dimmed answer' answer
  level : x.reaped = y.reaped → answer = answer' ∧ x'.reaped = y'.reaped

variable {x y : Worker σ}

namespace Follows

theorem tornDown (h : Follows x y) : x.tornDown = y.tornDown :=
  (congrArg Worker.tornDown h.unasked :)

theorem process (h : Follows x y) : x.process.uncalled = y.process.uncalled :=
  (congrArg Worker.process h.unasked :)

theorem reader (h : Follows x y) : x.reader = y.reader :=
  (congrArg Worker.reader h.unasked :)

theorem process_ended (h : Follows x y) : x.process.ended = y.process.ended :=
  (congrArg Process.ended h.process :)

/-- The two processes go on in the same way. -/
theorem onward (h : Follows x y) {proc proc' : Process σ} (hsame : proc.uncalled = proc'.uncalled)
    (honward : x.process.Onward proc) :
    Follows { x with process := proc } { y with process := proc' } where
  unasked := by
    change { x.unasked with process := proc.uncalled } =
      { y.unasked with process := proc'.uncalled }
    rw [h.unasked, hsame]
  known := h.known
  ended hreaped := by
    obtain ⟨ended, hended⟩ := Option.isSome_iff_exists.mp (h.ended hreaped)
    exact Option.isSome_iff_exists.mpr ⟨ended, honward.ended ended hended⟩

theorem heard (program : Program σ) (h : Follows x y) :
    Follows (x.heard program) (y.heard program) := by
  refine h.onward ?_ (Process.onward_advance program x.process)
  rw [Process.uncalled_advance, h.process, Process.uncalled_advance]

theorem after (h : Follows x y) (r : Reader) : Follows (x.after r) (y.after r) where
  unasked := by
    have hrest (w : Worker σ) : (w.after r).unasked = w.unasked.after r := rfl
    rw [hrest, hrest, h.unasked]
  known := h.known
  ended := h.ended

/-! ### Asking for the end -/

/-- One look at both processes, of whose end nothing was known. -/
theorem collect (program : Program σ) (h : Follows x y) :
    Follows (x.collect program).1 (y.collect program).1 ∧
      (x.collect program).2 = (y.collect program).2 := by
  have hheard := h.heard program
  have hended := hheard.process_ended
  have hunasked (w : Worker σ) : (w.collect program).1.unasked = (w.heard program).unasked := rfl
  refine ⟨⟨?_, fun hreaped => ?_, fun hreaped => hreaped⟩, hended⟩
  · rw [hunasked, hunasked, hheard.unasked]
  · rw [reaped_collect] at hreaped ⊢
    exact (congrArg Option.isSome hended).trans hreaped

theorem collectWithin (program : Program σ) (h : Follows x y) (hlevel : x.reaped = y.reaped)
    (looks : Nat) :
    Follows (x.collectWithin program looks).1 (y.collectWithin program looks).1 ∧
      (x.collectWithin program looks).1.reaped = (y.collectWithin program looks).1.reaped ∧
      (x.collectWithin program looks).2 = (y.collectWithin program looks).2 := by
  induction looks generalizing x y with
  | zero => exact ⟨h, hlevel, rfl⟩
  | succ looks ih =>
    obtain ⟨hfollows, hended⟩ := h.collect program
    have hreaped : (x.collect program).1.reaped = (y.collect program).1.reaped :=
      congrArg Option.isSome hended
    rw [Worker.collectWithin, Worker.collectWithin]
    rcases hx : x.collect program with ⟨x', _ | ended⟩
    · rcases hy : y.collect program with ⟨y', _ | ended⟩
      · rw [hx, hy] at hfollows hreaped
        exact ih hfollows hreaped
      · rw [hx, hy] at hended
        cases hended
    · rcases hy : y.collect program with ⟨y', _ | ended'⟩
      · rw [hx, hy] at hended
        cases hended
      · rw [hx, hy] at hfollows hreaped hended
        exact ⟨hfollows, hreaped, hended⟩

end Follows

/-- A process that has ended is asked once. -/
theorem collectWithin_of_ended {w : Worker σ} {ended : ProcessEnd}
    (hended : w.process.ended = some ended) (looks : Nat) :
    w.collectWithin program (looks + 1) =
      ({ w with
          process := { w.process with calls := w.process.calls ++ [.poll true] }
          reaped := true }, some ended) := by
  have hadvance : w.process.advance program = w.process :=
    Process.advance_of_ended (by rw [hended]; rfl)
  have hcollect : w.collect program =
      ({ w with
          process := { w.process with calls := w.process.calls ++ [.poll true] }
          reaped := true }, some ended) := by
    rw [collect, Process.poll, hadvance]
    dsimp only
    rw [hended]
    rfl
  rw [collectWithin, hcollect]

/-- Two workers that failed. The one that knew that its process had ended does not know how any
more. -/
theorem Follows.gone (program : Program σ) (h : Follows x y) (context detail : String) :
    Follows (x.gone program context detail).1 (y.gone program context detail).1 ∧
    Dims (y.gone program context detail).2 (x.gone program context detail).2 ∧
    (x.reaped = y.reaped →
      (x.gone program context detail).2 = (y.gone program context detail).2 ∧
      (x.gone program context detail).1.reaped = (y.gone program context detail).1.reaped) := by
  unfold Worker.gone
  obtain ⟨hx, hxreason⟩ | ⟨hx, hxreason⟩ := exitReason_cases program x
  · obtain ⟨hy, hyreason⟩ | ⟨hy, hyreason⟩ := exitReason_cases program y
    · rw [hxreason, hyreason]
      exact ⟨h, .same, fun hlevel => ⟨rfl, hlevel⟩⟩
    · -- the first worker has been told the end already, and the second one is told now
      have hsome := h.ended hx
      rw [h.process_ended] at hsome
      obtain ⟨ended, hended⟩ := Option.isSome_iff_exists.mp hsome
      rw [hxreason, hyreason, graceLooks, collectWithin_of_ended hended]
      refine ⟨⟨?_, fun _ => hx, h.ended⟩, .ended ended context detail, fun hlevel => ?_⟩
      · exact h.unasked
      · rw [hx, hy] at hlevel
        cases hlevel
  · obtain ⟨hy, -⟩ | ⟨hy, hyreason⟩ := exitReason_cases program y
    · have hknown := h.known hy
      rw [hx] at hknown
      cases hknown
    · obtain ⟨hfollows, hreaped, hended⟩ :=
        h.collectWithin program (hx.trans hy.symm) graceLooks
      rw [hxreason, hyreason, hended]
      exact ⟨hfollows, .same, fun _ => ⟨rfl, hreaped⟩⟩

/-! ### The same operation on both -/

theorem uncalled_sendRequest (program : Program σ) (image name : Bytes) (proc : Process σ) :
    sendRequest program image name proc.uncalled =
      ((sendRequest program image name proc).1.uncalled,
        (sendRequest program image name proc).2) := by
  unfold sendRequest
  split
  · rfl
  · rw [Process.uncalled_send]
    rcases proc.send program (Request.encode image name) with ⟨proc', _ | _⟩ <;> rfl

theorem send_eq (program : Program σ) (image name : Bytes) (w : Worker σ) :
    w.send program image name =
      if w.tornDown then (w, .error tornDownError)
      else
        match sendRequest program image name w.process with
        | (process, .ok ()) => ({ w with process := process }, .ok ())
        | (process, .error detail) =>
          match gone program sending detail { w with process := process } with
          | (w, e) => (w, .error e) :=
  rfl

theorem matched_send (program : Program σ) (h : Follows x y) (image name : Bytes) :
    Matched x y (x.send program image name).1 (y.send program image name).1
      (.sent (x.send program image name).2) (.sent (y.send program image name).2) := by
  have honward := onward_sendRequest program image name x.process
  have hsame : (sendRequest program image name x.process).1.uncalled =
        (sendRequest program image name y.process).1.uncalled ∧
      (sendRequest program image name x.process).2 =
        (sendRequest program image name y.process).2 := by
    have hrequest := uncalled_sendRequest program image name x.process
    rw [h.process, uncalled_sendRequest] at hrequest
    exact ⟨(congrArg Prod.fst hrequest).symm, (congrArg Prod.snd hrequest).symm⟩
  by_cases hdown : y.tornDown = true
  · rw [send_eq, send_eq, if_pos hdown, if_pos (h.tornDown.trans hdown)]
    exact ⟨h, .same, fun hlevel => ⟨rfl, hlevel⟩⟩
  · rw [send_eq, send_eq, if_neg hdown, if_neg (h.tornDown ▸ hdown)]
    rcases hx : sendRequest program image name x.process with ⟨proc, detail | ⟨⟩⟩
    · rcases hy : sendRequest program image name y.process with ⟨proc', detail' | ⟨⟩⟩
      · rw [hx, hy] at hsame
        rw [hx] at honward
        obtain ⟨hproc, hdetail⟩ := hsame
        cases hdetail
        obtain ⟨hfollows, hdims, hlevel⟩ :=
          (h.onward hproc honward).gone program sending detail
        exact ⟨hfollows, .sent hdims, fun hreaped =>
          ⟨congrArg (Answer.sent <| .error ·) (hlevel hreaped).1, (hlevel hreaped).2⟩⟩
      · rw [hx, hy] at hsame
        cases hsame.2
    · rcases hy : sendRequest program image name y.process with ⟨proc', detail' | ⟨⟩⟩
      · rw [hx, hy] at hsame
        cases hsame.2
      · rw [hx, hy] at hsame
        rw [hx] at honward
        exact ⟨h.onward hsame.1 honward, .same, fun hlevel => ⟨rfl, hlevel⟩⟩

theorem read_eq (program : Program σ) (form : ReplyForm) (sink : Reply.Sink ω) (store : ω)
    (w : Worker σ) :
    w.read program form sink store =
      if w.tornDown then (w, store, .error tornDownError)
      else
        let run := readReply form sink (w.heard program).reader store
        match run.answer with
        | .error (.io detail) =>
          match ((w.heard program).after run.reader).gone program reading detail with
          | (w, e) => (w, run.store, .error e)
        | answer => ((w.heard program).after run.reader, run.store, answer) :=
  rfl

theorem matched_read (program : Program σ) (h : Follows x y) (form : ReplyForm)
    (sink : Reply.Sink ω) (store : ω) :
    Matched x y (x.read program form sink store).1 (y.read program form sink store).1
      (.answered (x.read program form sink store).2.2)
      (.answered (y.read program form sink store).2.2) ∧
    (x.read program form sink store).2.1 = (y.read program form sink store).2.1 := by
  have hheard := h.heard program
  rw [read_eq, read_eq, h.tornDown, hheard.reader]
  split
  · exact ⟨⟨h, .same, fun hlevel => ⟨rfl, hlevel⟩⟩, rfl⟩
  · dsimp only
    -- both workers read the same, so only what is asked of a failed one can differ
    generalize readReply form sink (y.heard program).reader store = run
    have hafter := hheard.after run.reader
    split
    · next detail _ =>
      obtain ⟨hfollows, hdims, hlevel⟩ := hafter.gone program reading detail
      exact ⟨⟨hfollows, .answered hdims, fun hreaped =>
        ⟨congrArg (Answer.answered <| .error ·) (hlevel hreaped).1, (hlevel hreaped).2⟩⟩, rfl⟩
    · exact ⟨⟨hafter, .same, fun hlevel => ⟨rfl, hlevel⟩⟩, rfl⟩

/-- The process of a worker behind a teardown. -/
def killed (program : Program σ) (w : Worker σ) : Process σ :=
  if w.reaped then w.process else w.process.kill program

/-- Whether a teardown is told how the process ended, or need not ask. -/
def endKnown (program : Program σ) (w : Worker σ) : Bool :=
  w.reaped || (w.killed program).ended.all ProcessEnd.isTellable

theorem teardown_eq (program : Program σ) (w : Worker σ) (s : System) :
    w.teardown program s =
      if w.tornDown then (w, s, .ok ())
      else
        ({ w with
            process := w.killed program
            reaped := w.endKnown program
            tornDown := true
            lease := none
            workspace := none },
          { s with
            disk := w.workspace.elim s.disk fun workspace => workspace.remove s.disk
            displays := w.lease.elim s.displays fun lease => (lease.release s.displays).2 },
          if w.endKnown program then .ok () else .error waitError) := rfl

theorem Follows.killed (h : Follows x y) :
    (x.killed program).uncalled = (y.killed program).uncalled := by
  unfold Worker.killed
  cases hx : x.reaped with
  | true =>
    cases hy : y.reaped with
    | true => exact h.process
    | false =>
      -- there is nothing left to kill, so this is no more than a call
      have hended := h.ended hx
      rw [h.process_ended] at hended
      exact h.process.trans (Process.kill_of_ended hended).1.symm
  | false =>
    cases hy : y.reaped with
    | true => exact absurd (h.known hy) (by simp [hx])
    | false => exact Process.uncalled_kill program h.process

theorem Follows.endKnown (program : Program σ) (h : Follows x y) :
    (y.endKnown program = true → x.endKnown program = true) ∧
      (x.reaped = y.reaped → x.endKnown program = y.endKnown program) := by
  have hended : (x.killed program).ended = (y.killed program).ended :=
    (congrArg Process.ended h.killed :)
  unfold Worker.endKnown
  rw [hended]
  refine ⟨fun hknown => ?_, fun hlevel => by rw [hlevel]⟩
  obtain hy | htold := Bool.or_eq_true_iff.mp hknown
  · exact Bool.or_eq_true_iff.mpr (.inl (h.known hy))
  · exact Bool.or_eq_true_iff.mpr (.inr htold)

theorem Follows.ended_killed (h : Follows x y) : (x.killed program).ended.isSome = true := by
  unfold Worker.killed
  split
  · next hreaped => exact h.ended hreaped
  · exact (Process.gone_kill program x.process).ended

theorem matched_teardown (program : Program σ) (h : Follows x y) (s : System) :
    Matched x y (x.teardown program s).1 (y.teardown program s).1
      (.tornDown (x.teardown program s).2.2) (.tornDown (y.teardown program s).2.2) ∧
    (x.teardown program s).2.1 = (y.teardown program s).2.1 := by
  have hlease : x.lease = y.lease := (congrArg Worker.lease h.unasked :)
  have hworkspace : x.workspace = y.workspace := (congrArg Worker.workspace h.unasked :)
  obtain ⟨hknown, hsame⟩ := h.endKnown program
  by_cases hdown : y.tornDown = true
  · rw [teardown_eq, teardown_eq, if_pos hdown, if_pos (h.tornDown.trans hdown)]
    exact ⟨⟨h, .same, fun hlevel => ⟨rfl, hlevel⟩⟩, rfl⟩
  · rw [teardown_eq, teardown_eq, if_neg hdown, if_neg (h.tornDown ▸ hdown), hlease, hworkspace]
    refine ⟨⟨⟨?_, hknown, fun _ => h.ended_killed⟩, ?_, fun hlevel => ?_⟩, rfl⟩
    · change { x.unasked with
          process := (x.killed program).uncalled
          tornDown := true
          lease := none
          workspace := none } =
        { y.unasked with
          process := (y.killed program).uncalled
          tornDown := true
          lease := none
          workspace := none }
      rw [h.unasked, h.killed]
    · dsimp only
      cases hy : y.endKnown program with
      | true =>
        rw [hknown hy]
        exact .same
      | false =>
        cases x.endKnown program with
        | true => exact .tornDown
        | false => exact .same
    · dsimp only
      rw [hsame hlevel]
      exact ⟨rfl, rfl⟩

/-- A scene that differs from another one in what its worker was asked. -/
structure Alike (a b : Scene σ ω) : Prop where
  worker : Follows a.worker b.worker
  system : a.system = b.system
  store : a.store = b.store

variable {a b : Scene σ ω}

/-- **The same operation on a worker that was asked and one that was not** does the same. -/
theorem matched_perform (program : Program σ) (op : Operation ω) (h : Alike a b) :
    Alike (op.perform program a).1 (op.perform program b).1 ∧
    Matched a.worker b.worker (op.perform program a).1.worker (op.perform program b).1.worker
      (op.perform program a).2 (op.perform program b).2 := by
  obtain ⟨hworker, hsystem, hstore⟩ := h
  cases op with
  | send image name =>
    have hmatched := matched_send program hworker image name
    exact ⟨⟨hmatched.follows, hsystem, hstore⟩, hmatched⟩
  | read form sink =>
    obtain ⟨hmatched, hstored⟩ := matched_read program hworker form sink a.store
    rw [hstore] at hmatched hstored
    simp only [Operation.perform]
    rw [hstore]
    exact ⟨⟨hmatched.follows, hsystem, hstored⟩, hmatched⟩
  | teardown =>
    obtain ⟨hmatched, hleft⟩ := matched_teardown program hworker a.system
    rw [hsystem] at hmatched hleft
    simp only [Operation.perform]
    rw [hsystem]
    exact ⟨⟨hmatched.follows, hleft, hstore⟩, hmatched⟩

end Worker

end ImageScoring
