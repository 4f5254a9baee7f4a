import ImageScoring.Worker

/-!
# Releasing workers

Whatever is done with a worker, and whatever its process does, what belongs to it is held until it
is torn down and then released, once (`Held`, `Held.uses`). A worker that was torn down does nothing
any more (`Spent`).
-/

namespace ImageScoring

variable {σ ω : Type} {program : Program σ}

namespace Process

variable {proc : Process σ}

/-! ### Processes that are gone -/

/-- The process has ended, and its end has been collected. -/
structure Gone (proc : Process σ) : Prop where
  ended : proc.ended.isSome = true
  absent : proc.present = false

theorem advance_of_ended (h : proc.ended.isSome = true) : proc.advance program = proc := by
  obtain ⟨ended, hended⟩ := Option.isSome_iff_exists.mp h
  rw [advance, hended]

theorem Gone.advance (h : proc.Gone) : (proc.advance program).Gone := by
  rwa [advance_of_ended h.ended]

theorem Gone.send (h : proc.Gone) (program : Program σ) (bytes : Bytes) :
    (proc.send program bytes).1.Gone := by
  rw [Process.send, advance_of_ended h.ended]
  have hno : (proc.inputOpen && proc.ended.isNone) = false := by
    simp [Option.isNone_eq_false_iff.mpr h.ended]
  rw [hno]
  exact h

theorem Gone.read (h : proc.Gone) (output : Bytes) : ({ proc with output := output }).Gone :=
  ⟨h.ended, h.absent⟩

/-- One more call changes nothing about its being gone. -/
theorem absent_of_calls {calls : List Call} (h : proc.present = false) :
    ({ proc with calls := proc.calls ++ calls }).present = false := by
  rw [present, Bool.not_eq_false'] at h ⊢
  rw [List.any_append, h, Bool.true_or]

theorem Gone.poll (h : proc.Gone) : (proc.poll program).1.Gone := by
  rw [Process.poll, advance_of_ended h.ended]
  exact ⟨h.ended, absent_of_calls h.absent⟩

/-- A process that is said to have ended when it is asked is gone. -/
theorem gone_of_poll (h : (proc.poll program).2.isSome = true) : (proc.poll program).1.Gone := by
  rw [Process.poll] at h ⊢
  dsimp only at h ⊢
  exact ⟨h, by simp [present, Call.collects, h]⟩

theorem gone_kill (program : Program σ) (proc : Process σ) : (proc.kill program).Gone := by
  refine ⟨?_, by simp [present, kill, Call.collects]⟩
  cases h : (proc.advance program).ended <;> simp [kill, h]

end Process

namespace Worker

variable {w w' : Worker σ} {s s' s₀ : System} {workspace : Workspace} {lease : Lease}

/-! ### Workers that were torn down -/

/-- Nothing can be done with the worker any more. -/
structure Spent (program : Program σ) (w : Worker σ) : Prop where
  teardown : ∀ s, w.teardown program s = (w, s, .ok ())
  send : ∀ image name, w.send program image name = (w, .error tornDownError)
  read : ∀ {ω : Type} (form : ReplyForm) (sink : Reply.Sink ω) (store : ω),
    w.read program form sink store = (w, store, .error tornDownError)

theorem spent_of_tornDown (h : w.tornDown = true) : w.Spent program where
  teardown s := by rw [teardown, if_pos h]
  send image name := by rw [send, if_pos h]
  read form sink store := by rw [read, if_pos h]

/-! ### What is done with a worker -/

/-- Something is done with a worker of a system. -/
inductive Use (program : Program σ) (w : Worker σ) (s : System) : Worker σ → System → Prop where
  | send (image name : Bytes) : Use program w s (w.send program image name).1 s
  | read {ω : Type} (form : ReplyForm) (sink : Reply.Sink ω) (store : ω) :
      Use program w s (w.read program form sink store).1 s
  | isRunning : Use program w s (w.isRunning program).1 s
  | teardown : Use program w s (w.teardown program s).1 (w.teardown program s).2.1

/-- Any number of things are done with a worker. -/
inductive Uses (program : Program σ) (w : Worker σ) (s : System) : Worker σ → System → Prop where
  | refl : Uses program w s w s
  | step {w₁ w₂ : Worker σ} {s₁ s₂ : System} : Uses program w s w₁ s₁ →
      Use program w₁ s₁ w₂ s₂ → Uses program w s w₂ s₂

theorem Uses.trans {w₁ w₂ : Worker σ} {s₁ s₂ : System} (h : Uses program w s w₁ s₁)
    (h' : Uses program w₁ s₁ w₂ s₂) : Uses program w s w₂ s₂ := by
  induction h' with
  | refl => exact h
  | step _ huse ih => exact ih.step huse

/-- A worker that has what another one had, and whose process is gone if the other's was, or if its
end is said to have been collected. -/
structure Retains (w w' : Worker σ) : Prop where
  tornDown : w'.tornDown = w.tornDown
  workspace : w'.workspace = w.workspace
  lease : w'.lease = w.lease
  reaped : (w.reaped = true → w.process.Gone) → w'.reaped = true → w'.process.Gone
  gone : w.process.Gone → w'.process.Gone

theorem Retains.refl (w : Worker σ) : w.Retains w :=
  ⟨rfl, rfl, rfl, fun h => h, fun h => h⟩

theorem Retains.trans {w'' : Worker σ} (h : w.Retains w') (h' : w'.Retains w'') :
    w.Retains w'' where
  tornDown := h'.tornDown.trans h.tornDown
  workspace := h'.workspace.trans h.workspace
  lease := h'.lease.trans h.lease
  reaped hw := h'.reaped (h.reaped hw)
  gone hw := h'.gone (h.gone hw)

theorem retains_process {process : Process σ} (h : w.process.Gone → process.Gone) :
    w.Retains { w with process := process } :=
  ⟨rfl, rfl, rfl, fun hw hreaped => h (hw hreaped), h⟩

theorem retains_after (w : Worker σ) (r : Reader) : w.Retains (w.after r) :=
  ⟨rfl, rfl, rfl, fun hw hreaped => (hw hreaped).read _, fun h => h.read _⟩

theorem retains_collect (program : Program σ) (w : Worker σ) : w.Retains (w.collect program).1 :=
  ⟨rfl, rfl, rfl, fun _ hreaped => Process.gone_of_poll hreaped, fun h => h.poll⟩

theorem retains_exitReason (w : Worker σ) : w.Retains (w.exitReason program).1 := by
  obtain ⟨-, hreason⟩ | ⟨hreaped, hreason⟩ := exitReason_cases program w
  · rw [hreason]
    exact .refl w
  · rw [hreason]
    exact collectWithin_keeps (fun w' _ h => h.trans (w'.retains_collect program)) graceLooks
      hreaped (.refl w)

theorem retains_gone (w : Worker σ) (context detail : String) :
    w.Retains (w.gone program context detail).1 :=
  w.retains_exitReason

theorem retains_isRunning (w : Worker σ) : w.Retains (w.isRunning program).1 := by
  rw [isRunning]
  split
  · exact .refl w
  · exact w.retains_collect program

theorem retains_send (w : Worker σ) (image name : Bytes) :
    w.Retains (w.send program image name).1 := by
  have hsent : w.process.Gone → (sendRequest program image name w.process).1.Gone := by
    intro h
    have hsend := h.send program (Request.encode image name)
    rw [sendRequest]
    split
    · exact h
    · split
      all_goals
        next hended =>
        rw [hended] at hsend
        exact hsend
  rw [send]
  split
  · exact .refl w
  · split
    · next process hprocess =>
      rw [hprocess] at hsent
      exact retains_process hsent
    · next process detail hprocess =>
      rw [hprocess] at hsent
      exact (retains_process hsent).trans (retains_gone _ sending detail)

theorem retains_read (w : Worker σ) (form : ReplyForm) (sink : Reply.Sink ω) (store : ω) :
    w.Retains (w.read program form sink store).1 := by
  rw [read]
  split
  · exact .refl w
  · have hadvance : w.Retains { w with process := w.process.advance program } :=
      retains_process fun h => h.advance
    dsimp only
    split
    · next detail _ =>
      exact (hadvance.trans (retains_after _ _)).trans (retains_gone _ reading detail)
    · exact hadvance.trans (retains_after _ _)

/-! ### Holding and releasing -/

/-- What belongs to a worker is held, or it was torn down and all of it is released. -/
inductive Held (workspace : Workspace) (lease : Lease) (s₀ : System) :
    Worker σ → System → Prop where
  | held {w : Worker σ} : w.tornDown = false → w.workspace = some workspace →
      w.lease = some lease → (w.reaped = true → w.process.Gone) → Held workspace lease s₀ w s₀
  | released {w : Worker σ} : w.tornDown = true → w.process.Gone →
      Held workspace lease s₀ w (letGo workspace lease s₀)

theorem Held.retains (h : Held workspace lease s₀ w s) (hw : w.Retains w') :
    Held workspace lease s₀ w' s := by
  cases h with
  | held hstands hworkspace hlease hreaped =>
    exact .held (hw.tornDown.trans hstands) (hw.workspace.trans hworkspace)
      (hw.lease.trans hlease) (hw.reaped hreaped)
  | released hdown hgone => exact .released (hw.tornDown.trans hdown) (hw.gone hgone)

/-- **A teardown releases everything**, or has done so. -/
theorem Held.teardown (h : Held workspace lease s₀ w s) (program : Program σ) :
    (w.teardown program s).1.tornDown = true ∧ (w.teardown program s).1.process.Gone ∧
      (w.teardown program s).2.1 = letGo workspace lease s₀ := by
  cases h with
  | held hstands hworkspace hlease hreaped =>
    rw [Worker.teardown, if_neg (by simp [hstands])]
    refine ⟨rfl, ?_, ?_⟩
    · dsimp only
      split
      · next hr => exact hreaped hr
      · exact Process.gone_kill _ _
    · dsimp only
      rw [hworkspace, hlease]
      rfl
  | released hdown hgone =>
    rw [Worker.teardown, if_pos hdown]
    exact ⟨hdown, hgone, rfl⟩

/-- What is done with a worker keeps what belongs to it, or releases all of it. -/
theorem Held.use (h : Held workspace lease s₀ w s) (huse : Use program w s w' s') :
    Held workspace lease s₀ w' s' := by
  cases huse with
  | send image name => exact h.retains (w.retains_send image name)
  | read form sink store => exact h.retains (w.retains_read form sink store)
  | isRunning => exact h.retains w.retains_isRunning
  | teardown =>
    obtain ⟨hdown, hgone, hsystem⟩ := h.teardown program
    rw [hsystem]
    exact .released hdown hgone

/-- **Whatever is done with a worker**, what belongs to it is held until all of it is released. -/
theorem Held.uses (h : Held workspace lease s₀ w s) (huses : Uses program w s w' s') :
    Held workspace lease s₀ w' s' := by
  induction huses with
  | refl => exact h
  | step _ huse ih => exact ih.use huse

end Worker

end ImageScoring
