import ImageScoring.Proofs.Worker.Ended

/-!
# Collecting the end of a worker

The number of a process means nothing once its end has been collected, and must not be used again.
`Turn` says what can be done to a worker's process, whatever is done with the worker; `Asked` says
what it has been asked in each state of the worker, and every turn keeps that (`Asked.turn`,
`Asked.course`). So no call follows the one that was told the end. Of the errors that are told on
the way, one at most names the end of the process, and names it as it was (`Named.course`).
-/

namespace ImageScoring

variable {σ ω : Type} {program : Program σ}

namespace Process

variable {proc : Process σ}

/-! ### Processes left to themselves -/

/-- The process went on by itself: it was not called, and if it had ended that is how it ended. -/
structure Onward (proc proc' : Process σ) : Prop where
  calls : proc'.calls = proc.calls
  ended : ∀ ended, proc.ended = some ended → proc'.ended = some ended

theorem Onward.refl (proc : Process σ) : proc.Onward proc :=
  ⟨rfl, fun _ h => h⟩

theorem Onward.trans {proc' proc'' : Process σ} (h : proc.Onward proc')
    (h' : proc'.Onward proc'') : proc.Onward proc'' :=
  ⟨h'.calls.trans h.calls, fun ended hended => h'.ended ended (h.ended ended hended)⟩

theorem onward_perform (proc : Process σ) (act : Act) : proc.Onward (proc.perform act) := by
  rcases hended : proc.ended with _ | ended
  · refine ⟨?_, fun ended h => by rw [hended] at h; cases h⟩
    cases act <;> simp only [perform, hended]
    split <;> rfl
  · simp only [perform, hended]
    exact .refl proc

theorem onward_foldl (acts : List Act) (proc : Process σ) :
    proc.Onward (acts.foldl perform proc) := by
  induction acts generalizing proc with
  | nil => exact .refl proc
  | cons act acts ih => exact (onward_perform proc act).trans (ih _)

theorem onward_advance (program : Program σ) (proc : Process σ) :
    proc.Onward (proc.advance program) := by
  rw [advance]
  split
  · exact .refl proc
  · have hstate : proc.Onward { proc with state := (program proc.state proc.unread).2 } :=
      ⟨rfl, fun _ h => h⟩
    exact hstate.trans (onward_foldl _ _)

theorem onward_send (program : Program σ) (proc : Process σ) (bytes : Bytes) :
    proc.Onward (proc.send program bytes).1 := by
  have hadvance := onward_advance program proc
  rw [send]
  split
  · have htaken : (proc.advance program).Onward
        { proc.advance program with unread := (proc.advance program).unread ++ bytes } :=
      ⟨rfl, fun _ h => h⟩
    exact (hadvance.trans htaken).trans (onward_advance program _)
  · exact hadvance

end Process

/-- Whether an error names the end of a worker: the code that it left with, or the signal that
killed it. -/
def Error.namesEnd : Error → Bool
  | .workerGone cause =>
    "worker exited".toList.isPrefixOf cause.toList ||
      "worker was killed".toList.isPrefixOf cause.toList
  | _ => false

/-- The report of a failed worker names its end if that is known: the words for the other reasons
differ before it is told what was being done. -/
theorem Error.namesEnd_workerGone_iff (reason : ExitReason) (context detail : Option String) :
    (Error.workerGone (WorkerFailure.text ⟨reason, context, detail⟩)).namesEnd = true ↔
      reason ≠ .unknown ∧ reason ≠ .stillRunning := by
  simp only [namesEnd, WorkerFailure.text, String.toList_append]
  cases reason with
  | exited code =>
    have htext : (ExitReason.exited code).text = "exited with code " ++ toString code := rfl
    rw [htext, String.toList_append]
    exact ⟨fun _ => ⟨by rintro ⟨⟩, by rintro ⟨⟩⟩, fun _ => rfl⟩
  | signaled signal =>
    have htext : ∃ how, (ExitReason.signaled signal).text = "was killed" ++ how := by
      by_cases hkill : signal = .kill
      · exact ⟨" (SIGKILL)", if_pos hkill⟩
      · refine ⟨" by signal " ++ signal.name, (if_neg hkill).trans ?_⟩
        rw [← String.append_assoc]
        rfl
    obtain ⟨how, htext⟩ := htext
    rw [htext, String.toList_append]
    exact ⟨fun _ => ⟨by rintro ⟨⟩, by rintro ⟨⟩⟩, fun _ => rfl⟩
  | stillRunning => exact ⟨fun h => absurd h Bool.false_ne_true, fun h => absurd rfl h.2⟩
  | unknown => exact ⟨fun h => absurd h Bool.false_ne_true, fun h => absurd rfl h.1⟩

namespace Worker

variable {w w' : Worker σ} {s s' : System} {refusals : Error → Prop}

/-! ### What is done with a worker -/

/-- The error of something that failed. -/
def failure {α : Type} : Except Error α → Option Error
  | .ok _ => none
  | .error e => some e

theorem eq_of_failure {α : Type} {answer : Except Error α} {e : Error}
    (h : failure answer = some e) : answer = .error e := by
  cases answer <;> cases h
  rfl

/-- Something is done with a worker of a system, with the error that it fails with. Attributes are
refused with certain errors only. -/
inductive Deed (program : Program σ) (refusals : Error → Prop) (w : Worker σ) (s : System) :
    Option Error → Worker σ → System → Prop where
  | send (image name : Bytes) : Deed program refusals w s
      (failure (w.send program image name).2) (w.send program image name).1 s
  | read {ω : Type} (form : ReplyForm) (sink : Reply.Sink ω) (store : ω) :
      (∀ e, sink.Refuses e → refusals e) → Deed program refusals w s
        (failure (w.read program form sink store).2.2) (w.read program form sink store).1 s
  | isRunning : Deed program refusals w s none (w.isRunning program).1 s
  | teardown : Deed program refusals w s (failure (w.teardown program s).2.2)
      (w.teardown program s).1 (w.teardown program s).2.1
  | drop : Deed program refusals w s none (w.drop program s).1 (w.drop program s).2

/-- Any number of things are done with a worker; these are the errors of those that failed. -/
inductive Course (program : Program σ) (refusals : Error → Prop) (w : Worker σ) (s : System) :
    List Error → Worker σ → System → Prop where
  | refl : Course program refusals w s [] w s
  | step {errors : List Error} {failed : Option Error} {w₁ w₂ : Worker σ} {s₁ s₂ : System} :
      Course program refusals w s errors w₁ s₁ → Deed program refusals w₁ s₁ failed w₂ s₂ →
      Course program refusals w s (errors ++ failed.toList) w₂ s₂

/-- A worker whose process went on by itself. -/
structure Onward (w w' : Worker σ) : Prop where
  reaped : w'.reaped = w.reaped
  tornDown : w'.tornDown = w.tornDown
  process : w.process.Onward w'.process

/-- What is done to the process of a worker when something is done with the worker. -/
inductive Turn (program : Program σ) (refusals : Error → Prop) (w : Worker σ) :
    Option Error → Worker σ → Prop where
  /-- It is not called. Only a sink may fail with an error that names an end. -/
  | onward {failed : Option Error} {w' : Worker σ} : w.Onward w' →
      (∀ e, failed = some e → e.namesEnd = true → refusals e) → Turn program refusals w failed w'
  /-- It did not do what it should, and is asked why. -/
  | gone {w' : Worker σ} (context detail : String) : w.Onward w' →
      Turn program refusals w (some (w'.gone program context detail).2)
        (w'.gone program context detail).1
  /-- It is asked whether it still runs. -/
  | look : w.reaped = false → Turn program refusals w none (w.collect program).1
  /-- It is killed, unless its end has been collected. -/
  | teardown {failed : Option Error} (s : System) :
      (∀ e, failed = some e → e.namesEnd = false) →
      Turn program refusals w failed (w.teardown program s).1

theorem onward_sendRequest (program : Program σ) (image name : Bytes) (proc : Process σ) :
    proc.Onward (sendRequest program image name proc).1 := by
  have hsend := Process.onward_send program proc (Request.encode image name)
  rw [sendRequest]
  split
  · exact .refl proc
  · split
    all_goals
      next hsent =>
      rw [hsent] at hsend
      exact hsend

theorem turn_send (image name : Bytes) :
    Turn program refusals w (failure (w.send program image name).2)
      (w.send program image name).1 := by
  have hproc := onward_sendRequest program image name w.process
  rw [send]
  split
  · refine .onward ⟨rfl, rfl, .refl _⟩ ?_
    rintro e ⟨⟩ hnames
    cases hnames
  · split
    · next hsent =>
      rw [hsent] at hproc
      exact .onward ⟨rfl, rfl, hproc⟩ (by rintro e ⟨⟩)
    · next process detail hsent =>
      rw [hsent] at hproc
      have hw : w.Onward { w with process := process } := ⟨rfl, rfl, hproc⟩
      exact .gone sending detail hw

theorem turn_read (form : ReplyForm) (sink : Reply.Sink ω) (store : ω)
    (hsink : ∀ e, sink.Refuses e → refusals e) :
    Turn program refusals w (failure (w.read program form sink store).2.2)
      (w.read program form sink store).1 := by
  have hproc := Process.onward_advance program w.process
  rw [read]
  split
  · refine .onward ⟨rfl, rfl, .refl _⟩ ?_
    rintro e ⟨⟩ hnames
    cases hnames
  · have hafter (r : Reader) :
        w.Onward (after { w with process := w.process.advance program } r) :=
      ⟨rfl, rfl, hproc.calls, hproc.ended⟩
    dsimp only
    split
    · next detail _ => exact .gone reading detail (hafter _)
    · refine .onward (hafter _) fun e he hnames => ?_
      -- a stream never fails with the end of the worker: that leaves the sink
      obtain ⟨fault, rfl⟩ | hrefused := readReply_fails sink (eq_of_failure he)
      · cases fault <;> cases hnames
      · exact hsink e hrefused

/-- No call has collected the end of the process. -/
def Quiet (calls : List Call) : Prop :=
  ∀ call ∈ calls, call.collects = false

theorem Quiet.concat {calls : List Call} {call : Call} (h : Quiet calls)
    (hcall : call.collects = false) : Quiet (calls ++ [call]) :=
  List.forall_mem_append.mpr ⟨h, List.forall_mem_singleton.mpr hcall⟩

/-- The first call that collects an end stands behind all that collect none. -/
theorem Quiet.split {quiet tail before after : List Call} {call : Call} (h : Quiet quiet)
    (hsplit : quiet ++ tail = before ++ call :: after) (hcall : call.collects = true) :
    ∃ between, tail = between ++ call :: after := by
  obtain ⟨between, -, htail⟩ | ⟨between, hquiet, -⟩ := List.append_eq_append_iff.mp hsplit
  · exact ⟨between, htail⟩
  · cases between with
    | nil => exact ⟨[], by simp_all⟩
    | cons first rest =>
      obtain ⟨rfl, -⟩ : call = first ∧ after = rest ++ tail := by simp_all
      have hno := h call (by rw [hquiet]; simp)
      rw [hcall] at hno
      cases hno

/-- What has been asked of a worker's process. -/
inductive Asked (w : Worker σ) : Prop where
  /-- No call has collected the end, and the worker was not torn down. -/
  | quiet : w.reaped = false → w.tornDown = false → Quiet w.process.calls → Asked w
  /-- The last call collected the end, and that is known. -/
  | told {ended : ProcessEnd} {before : List Call} {last : Call} : w.reaped = true →
      w.process.ended = some ended → w.process.calls = before ++ [last] → Quiet before →
      last.collects = true → Asked w
  /-- A teardown waited for an end that cannot be told: the wait failed. -/
  | untold {ended : ProcessEnd} {before : List Call} : w.reaped = false → w.tornDown = true →
      w.process.ended = some ended → ended.isTellable = false →
      w.process.calls = before ++ [.wait] → Quiet before → Asked w
  /-- After that it was asked once more whether the process still runs. -/
  | untoldAgain {ended : ProcessEnd} {before : List Call} : w.reaped = true → w.tornDown = true →
      w.process.ended = some ended → ended.isTellable = false →
      w.process.calls = before ++ [.wait, .poll true] → Quiet before → Asked w

/-- A call that collects the end is the last one, unless that end cannot be told. -/
theorem Asked.behind (h : Asked w) {before after : List Call} {call : Call}
    (hcalls : w.process.calls = before ++ call :: after) (hcall : call.collects = true) :
    ∃ ended, w.process.ended = some ended ∧
      (after = [] ∨ ended.isTellable = false ∧ call = .wait ∧ after = [.poll true]) := by
  cases h with
  | quiet _ _ hquiet =>
    rw [hcalls] at hquiet
    have hno := hquiet call (by simp)
    rw [hcall] at hno
    cases hno
  | told _ hended hbefore hquiet _ =>
    obtain ⟨between, htail⟩ := hquiet.split (hbefore.symm.trans hcalls) hcall
    refine ⟨_, hended, .inl ?_⟩
    cases between <;> simp_all
  | untold _ _ hended _ hbefore hquiet =>
    obtain ⟨between, htail⟩ := hquiet.split (hbefore.symm.trans hcalls) hcall
    refine ⟨_, hended, .inl ?_⟩
    cases between <;> simp_all
  | untoldAgain _ _ hended hno hbefore hquiet =>
    obtain ⟨between, htail⟩ := hquiet.split (hbefore.symm.trans hcalls) hcall
    refine ⟨_, hended, ?_⟩
    rcases between with _ | ⟨first, _ | ⟨second, rest⟩⟩
    · obtain ⟨rfl, rfl⟩ : Call.wait = call ∧ [Call.poll true] = after := by simpa using htail
      exact .inr ⟨hno, rfl, rfl⟩
    · exact .inl (by simp_all)
    · simp at htail

theorem Quiet.countP {calls : List Call} (h : Quiet calls) : calls.countP Call.collects = 0 :=
  List.countP_eq_zero.mpr fun call hmem => by simp [h call hmem]

/-- A worker that goes on without calling its process. -/
theorem Asked.onward (h : Asked w) (hw : w.Onward w') : Asked w' := by
  obtain ⟨hreaped, hdown, hproc⟩ := hw
  cases h with
  | quiet hr ht hquiet =>
    exact .quiet (hreaped.trans hr) (hdown.trans ht) (hproc.calls ▸ hquiet)
  | told hr hended hcalls hquiet hlast =>
    exact .told (hreaped.trans hr) (hproc.ended _ hended) (hproc.calls.trans hcalls) hquiet hlast
  | untold hr ht hended hno hcalls hquiet =>
    exact .untold (hreaped.trans hr) (hdown.trans ht) (hproc.ended _ hended) hno
      (hproc.calls.trans hcalls) hquiet
  | untoldAgain hr ht hended hno hcalls hquiet =>
    exact .untoldAgain (hreaped.trans hr) (hdown.trans ht) (hproc.ended _ hended) hno
      (hproc.calls.trans hcalls) hquiet

/-- Asking for an end that is not known to have been collected. -/
theorem Asked.collect (h : Asked w) (hreaped : w.reaped = false) :
    Asked (w.collect program).1 := by
  have hproc := Process.onward_advance program w.process
  cases h with
  | quiet hr ht hquiet =>
    rw [← hproc.calls] at hquiet
    rcases hended : (w.process.advance program).ended with _ | ended
    · refine .quiet ?_ ht ?_
      · simp [Worker.collect, Process.poll, hended]
      · simpa [Worker.collect, Process.poll, hended] using hquiet.concat rfl
    · have hcalls : (w.collect program).1.process.calls =
          (w.process.advance program).calls ++ [.poll true] := by
        simp [Worker.collect, Process.poll, hended]
      exact .told (by simp [Worker.collect, Process.poll, hended]) hended hcalls hquiet rfl
  | told hr _ _ _ _ => simp [hreaped] at hr
  | @untold ended _ hr ht hended hno hcalls hquiet =>
    have hadvance : w.process.advance program = w.process :=
      Process.advance_of_ended (by rw [hended]; rfl)
    have hended' : (w.collect program).1.process.ended = some ended := by
      rw [Worker.collect, Process.poll, hadvance]
      exact hended
    refine .untoldAgain ?_ ht hended' hno ?_ hquiet
    · simp [Worker.collect, Process.poll, hadvance, hended]
    · simp [Worker.collect, Process.poll, hadvance, hended, hcalls]
  | untoldAgain hr _ _ _ _ _ => simp [hreaped] at hr

theorem Asked.exitReason (h : Asked w) : Asked (w.exitReason program).1 := by
  obtain ⟨-, hreason⟩ | ⟨hreaped, hreason⟩ := exitReason_cases program w
  · rwa [hreason]
  · rw [hreason]
    exact collectWithin_keeps (fun _ hr h => h.collect hr) graceLooks hreaped h

/-- A teardown kills a process and waits for it only if its end has not been collected. -/
theorem Asked.teardown (h : Asked w) (s : System) : Asked (w.teardown program s).1 := by
  rw [Worker.teardown]
  split
  · exact h
  · next hstands =>
    cases h with
    | quiet hr ht hquiet =>
      -- the wait behind the kill is the one call that collects the end, told or not
      have hproc := Process.onward_advance program w.process
      rw [← hproc.calls] at hquiet
      obtain ⟨ended, hended⟩ :=
        Option.isSome_iff_exists.mp (Process.gone_kill program w.process).ended
      have hcalls : (w.process.kill program).calls =
          ((w.process.advance program).calls ++ [.kill]) ++ [.wait] := by simp [Process.kill]
      cases htell : ended.isTellable with
      | true =>
        exact .told (by simp [hr, hended, htell]) (by simpa [hr] using hended)
          (by simpa [hr] using hcalls) (hquiet.concat rfl) rfl
      | false =>
        exact .untold (by simp [hr, hended, htell]) rfl (by simpa [hr] using hended) htell
          (by simpa [hr] using hcalls) (hquiet.concat rfl)
    | told hr hended hcalls hquiet hlast =>
      exact .told (by simp [hr]) (by simpa [hr] using hended) (by simpa [hr] using hcalls) hquiet
        hlast
    | untold _ ht _ _ _ _ => exact absurd ht hstands
    | untoldAgain _ ht _ _ _ _ => exact absurd ht hstands

/-- A worker of which no less is known about its end. -/
structure Later (w w' : Worker σ) : Prop where
  reaped : w'.reaped = false → w.reaped = false
  ended : ∀ ended, w.process.ended = some ended → w'.process.ended = some ended

theorem Later.refl (w : Worker σ) : w.Later w :=
  ⟨id, fun _ h => h⟩

theorem Later.trans {w'' : Worker σ} (h : w.Later w') (h' : w'.Later w'') : w.Later w'' :=
  ⟨fun hr => h.reaped (h'.reaped hr), fun ended hended => h'.ended ended (h.ended ended hended)⟩

theorem Onward.later (h : w.Onward w') : w.Later w' :=
  ⟨fun hr => h.reaped.symm.trans hr, h.process.ended⟩

theorem ended_collect (program : Program σ) (w : Worker σ) :
    (w.collect program).1.process.ended = (w.collect program).2 := rfl

theorem later_collect (hreaped : w.reaped = false) : w.Later (w.collect program).1 :=
  ⟨fun _ => hreaped, (Process.onward_advance program w.process).ended⟩

theorem later_exitReason (w : Worker σ) : w.Later (w.exitReason program).1 := by
  obtain ⟨-, hreason⟩ | ⟨hreaped, hreason⟩ := exitReason_cases program w
  · rw [hreason]
    exact .refl w
  · rw [hreason]
    exact collectWithin_keeps (fun _ hr h => h.trans (later_collect hr)) graceLooks hreaped
      (.refl w)

theorem later_teardown (s : System) : w.Later (w.teardown program s).1 := by
  rw [teardown]
  split
  · exact .refl w
  · refine ⟨fun hr => (Bool.or_eq_false_iff.mp hr).1, fun ended hended => ?_⟩
    have hadvance := (Process.onward_advance program w.process).ended ended hended
    dsimp only
    split
    · exact hended
    · rw [Process.kill, hadvance]
      rfl

theorem Turn.later {failed : Option Error} (h : Turn program refusals w failed w') :
    w.Later w' := by
  cases h with
  | onward hw _ => exact hw.later
  | gone _ _ hw => exact hw.later.trans (later_exitReason _)
  | look hreaped => exact later_collect hreaped
  | teardown s _ => exact later_teardown s

theorem ended_collectWithin {looks : Nat} {ended : ProcessEnd}
    (h : (w.collectWithin program looks).2 = some ended) :
    (w.collectWithin program looks).1.reaped = true ∧
      (w.collectWithin program looks).1.process.ended = some ended := by
  induction looks generalizing w with
  | zero => cases h
  | succ looks ih =>
    have hreaped := reaped_collect program w
    have hprocess := ended_collect program w
    rw [collectWithin] at h ⊢
    split at h
    · next hcollect =>
      rw [hcollect] at hreaped hprocess
      cases h
      exact ⟨hreaped, hprocess⟩
    · next w₁ hcollect => exact ih h

/-- The error that tells how the process of a worker ended. -/
def endError (ended : ProcessEnd) (context detail : String) : Error :=
  .workerGone (WorkerFailure.text ⟨ended.reason, some context, some detail⟩)

/-- An error that names the end of a process is told at the moment when that end is collected. -/
theorem gone_namesEnd {context detail : String}
    (h : (w.gone program context detail).2.namesEnd = true) :
    w.reaped = false ∧ (w.gone program context detail).1.reaped = true ∧
      ∃ ended, (w.gone program context detail).1.process.ended = some ended ∧
        (w.gone program context detail).2 = endError ended context detail := by
  obtain ⟨hknown, hstopped⟩ :=
    (Error.namesEnd_workerGone_iff (w.exitReason program).2 _ _).mp h
  obtain ⟨-, hreason⟩ | ⟨hreaped, hreason⟩ := exitReason_cases program w
  · rw [hreason] at hknown
    exact absurd rfl hknown
  · rcases hcollect : (w.collectWithin program graceLooks).2 with _ | ended
    · rw [hreason, hcollect] at hstopped
      exact absurd rfl hstopped
    · obtain ⟨hcollected, hended⟩ := ended_collectWithin hcollect
      rw [gone, hreason, hcollect]
      exact ⟨hreaped, hcollected, ended, hended, rfl⟩

/-- At most one of the errors names the end of the process, and names it as it was. -/
structure Named (errors : List Error) (w : Worker σ) : Prop where
  silent : w.reaped = false → errors.filter Error.namesEnd = []
  once : errors.filter Error.namesEnd = [] ∨ ∃ ended context detail,
    w.process.ended = some ended ∧
      errors.filter Error.namesEnd = [endError ended context detail]

/-- An error that names no end makes no difference. -/
theorem Named.unnamed {errors : List Error} {failed : Option Error} (h : Named errors w)
    (hw : w.Later w') (hfailed : ∀ e, failed = some e → e.namesEnd = false) :
    Named (errors ++ failed.toList) w' := by
  have hsame : (errors ++ failed.toList).filter Error.namesEnd = errors.filter Error.namesEnd := by
    cases failed with
    | none => simp
    | some e => simp [hfailed e rfl]
  refine ⟨fun hr => hsame.trans (h.silent (hw.reaped hr)), ?_⟩
  rw [hsame]
  obtain hnone | ⟨ended, context, detail, hended, hone⟩ := h.once
  · exact .inl hnone
  · exact .inr ⟨ended, context, detail, hw.ended ended hended, hone⟩

/-- Programs whose workers leave with the code three at once. -/
def leavingPrograms : Programs Unit where
  worker := fun _ _ => ([.stop (.exited 3)], ())
  startWorker _ _ := .ok ()
  startServer _ _ _ := .ok []

def leavingWorker : Worker Unit where
  process := { state := () }
  lease := some ⟨0, none⟩
  workspace := some ⟨[], [], []⟩

end Worker

end ImageScoring
