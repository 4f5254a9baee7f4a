import ImageScoring.Proofs.Worker.Storing

/-!
# Workers that have ended by themselves

A process may end while nobody turns to it. A worker that has lost its process takes no request any
more, and stays lost (`Lost.send`). How the process has ended matters once more, when the worker is
torn down: the wait for an end that cannot be told fails, and nothing else makes a teardown fail
(`teardown_answer`).
-/

namespace ImageScoring.Worker

variable {σ : Type} {program : Program σ} {w : Worker σ}

/-- The worker was torn down, or its process has ended by the time when it is turned to next. -/
def Lost (program : Program σ) (w : Worker σ) : Prop :=
  w.tornDown = true ∨ (w.process.advance program).ended.isSome = true

/-- The process has ended by itself, in a way that cannot be told, and nobody has noticed that. -/
structure Untold (program : Program σ) (w : Worker σ) : Prop where
  stands : w.tornDown = false
  unnoticed : w.reaped = false
  ended : ∃ ended, (w.process.advance program).ended = some ended ∧ ended.isTellable = false

/-! ### Sending to a worker that is lost -/

theorem Lost.collect (h : w.Lost program) : (w.collect program).1.Lost program := by
  refine h.imp_right fun hended => ?_
  have hcalled : (w.collect program).1.process.ended.isSome = true := hended
  rwa [Process.advance_of_ended hcalled]

theorem Lost.exitReason (h : w.Lost program) : (w.exitReason program).1.Lost program := by
  obtain ⟨-, hreason⟩ | ⟨hreaped, hreason⟩ := exitReason_cases program w
  · rwa [hreason]
  · rw [hreason]
    exact collectWithin_keeps (fun _ _ h => h.collect) graceLooks hreaped h

/-- Nothing is sent to a process that has ended: the request is refused before it is turned to, or
then. -/
theorem sendRequest_of_ended {proc : Process σ} (image name : Bytes)
    (h : (proc.advance program).ended.isSome = true) :
    ∃ proc' detail, sendRequest program image name proc = (proc', .error detail) ∧
      proc'.advance program = proc.advance program := by
  have hsend : proc.send program (Request.encode image name) = (proc.advance program, false) := by
    rw [Process.send]
    simp [Option.isNone_eq_false_iff.mpr h]
  rw [sendRequest]
  split
  · exact ⟨_, _, rfl, rfl⟩
  · rw [hsend]
    exact ⟨_, _, rfl, Process.advance_of_ended h⟩

/-- **A worker that is lost takes no request**, and stays lost. -/
theorem Lost.send (h : w.Lost program) (image name : Bytes) :
    ∃ w' cause, w.send program image name = (w', .error (.workerGone cause)) ∧
      w'.Lost program := by
  rw [Worker.send]
  split
  · exact ⟨_, _, rfl, h⟩
  · next hstands =>
    obtain ⟨proc, detail, hrequest, hadvance⟩ :=
      sendRequest_of_ended image name (h.resolve_left hstands)
    have hlost : Lost program { w with process := proc } :=
      h.imp_right fun hended => by rwa [hadvance]
    rw [hrequest]
    exact ⟨_, _, rfl, hlost.exitReason⟩

/-! ### What comes of a teardown -/

/-- **A teardown fails exactly if the process has ended untold**: a process that is killed ends by a
signal that has a name. -/
theorem teardown_answer (program : Program σ) (w : Worker σ) (s : System) :
    w.Untold program ∧ (w.teardown program s).2.2 = .error waitError ∨
      ¬w.Untold program ∧ (w.teardown program s).2.2 = .ok () := by
  rw [teardown]
  by_cases hdown : w.tornDown = true
  · rw [if_pos hdown]
    exact .inr ⟨fun h => absurd hdown (by simp [h.stands]), rfl⟩
  rw [if_neg hdown]
  cases hreaped : w.reaped with
  | true => exact .inr ⟨fun h => absurd hreaped (by simp [h.unnoticed]), rfl⟩
  | false =>
    have hkill : (w.process.kill program).ended =
        (w.process.advance program).ended.or (some (.signaled 9 false)) := rfl
    cases hended : (w.process.advance program).ended with
    | none =>
      -- it is the kill that ends the process
      refine .inr ⟨?_, by simp [hkill, hended, ProcessEnd.isTellable, Signal.ofNumber?]⟩
      rintro ⟨-, -, _, hsome, -⟩
      cases hended.symm.trans hsome
    | some ended =>
      cases htell : ended.isTellable with
      | true =>
        refine .inr ⟨?_, by simp [hkill, hended, htell]⟩
        rintro ⟨-, -, _, hsome, hno⟩
        obtain rfl := Option.some.inj (hended.symm.trans hsome)
        cases htell.symm.trans hno
      | false =>
        have huntold : w.Untold program := ⟨by simpa using hdown, hreaped, ended, hended, htell⟩
        exact .inl ⟨huntold, by simp [hkill, hended, htell]⟩

end ImageScoring.Worker
