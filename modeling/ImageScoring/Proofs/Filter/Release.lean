import ImageScoring.Host.Service
import ImageScoring.Proofs.Filter.Start
import ImageScoring.Proofs.Worker.Release

/-!
# Releasing filters

Whatever objects a filter has scored, and whatever came of that, finishing or dropping it releases
all that its start has taken: the process of its worker, its workspace and its display server. So
does running a filter for the host, in whatever way that ends (`released_on_every_path`).
-/

namespace ImageScoring

open Workspace Worker

variable {σ ω : Type} {programs : Programs σ} {config : Config}

namespace Filter

variable {f f' : Filter σ} {s s' : System}

/-! ### Evaluations -/

/-- Any number of objects are scored, one after the other. -/
inductive Evaluations (programs : Programs σ) (f : Filter σ) (s : System) :
    Filter σ → System → Prop where
  | refl : Evaluations programs f s f s
  | step {ω : Type} {f' : Filter σ} {s' : System} (store : ObjectStore ω) (object : ω) :
      Evaluations programs f s f' s' →
      Evaluations programs f s (f'.evaluate programs store object s').filter
        (f'.evaluate programs store object s').system

theorem Evaluations.trans {f'' : Filter σ} {s'' : System} (h : Evaluations programs f s f' s')
    (h' : Evaluations programs f' s' f'' s'') : Evaluations programs f s f'' s'' := by
  induction h' with
  | refl => exact h
  | step store object _ ih => exact ih.step store object

theorem afterReply_uses (outcome : Reply.Outcome) (f : Filter σ) (s : System) :
    Uses programs.worker f.worker s (afterReply programs outcome f s).1.worker
      (afterReply programs outcome f s).2 := by
  have hteardown : Uses programs.worker f.worker s (f.worker.teardown programs.worker s).1
      (f.worker.teardown programs.worker s).2.1 :=
    .step .refl .teardown
  unfold afterReply
  split
  · exact hteardown
  · exact .refl

/-- Scoring an object sends, reads, and maybe tears the worker down, and does nothing else. -/
theorem evaluate_uses (store : ObjectStore ω) (object : ω) (f : Filter σ) (s : System) :
    Uses programs.worker f.worker s (f.evaluate programs store object s).filter.worker
      (f.evaluate programs store object s).system := by
  rw [evaluate]
  split
  · exact .refl
  · next object image _ =>
    have hsend : Uses programs.worker f.worker s
        (f.worker.send programs.worker image (Utf8.ofText f.script)).1 s :=
      .step .refl (.send image _)
    rw [evaluateImage]
    split
    · next worker e hsent =>
      rw [hsent] at hsend
      exact hsend
    · next worker hsent =>
      rw [hsent] at hsend
      have hread := hsend.step (.read f.replyForm (keep store) object)
      dsimp only [evaluateReply]
      split
      · next worker' object' e hanswer =>
        rw [hanswer] at hread
        exact hread
      · next worker' object' outcome hanswer =>
        rw [hanswer] at hread
        have hafter := hread.trans (afterReply_uses outcome { f with worker := worker' } s)
        split <;> exact hafter

theorem Evaluations.uses (h : Evaluations programs f s f' s') :
    Uses programs.worker f.worker s f'.worker s' := by
  induction h with
  | refl => exact .refl
  | step store object _ ih => exact ih.trans (evaluate_uses store object _ _)

/-! ### What is released -/

/-- All that was started since then is released: the process of the worker is gone and nothing can
be done with the worker any more, of the workspace nothing is left, and no display server that was
started runs. -/
structure Released (programs : Programs σ) (config : Config) (s s' : System) (w : Worker σ) :
    Prop where
  gone : w.process.Gone
  spent : w.Spent programs.worker
  cleared : Cleared config.sources s.temporary s.disk s'.disk
  unused : s.displays.Unused s'.displays

/-- What was started is held, and a teardown releases it. -/
theorem Started.released {s₁ s₂ : System} {workspace : Workspace} {lease : Lease}
    {worker w : Worker σ} (h : Started programs config s s₁ workspace lease worker)
    (huses : Uses programs.worker worker s₁ w s₂) :
    Released programs config s (w.teardown programs.worker s₂).2.1
      (w.teardown programs.worker s₂).1 := by
  obtain ⟨state, -, rfl⟩ := h.worker
  have hheld : Held workspace lease s₁ w s₂ :=
    Held.uses (.held rfl rfl rfl (by rintro ⟨⟩)) huses
  obtain ⟨hdown, hgone, hsystem⟩ := hheld.teardown programs.worker
  refine ⟨hgone, spent_of_tornDown hdown, ?_, ?_⟩
  · rw [hsystem]
    exact cleared_of_made h.made
  · rw [hsystem]
    exact h.leased.release

end Filter

namespace Host

open ImageScoring.Filter

/-! ### Serving the host -/

theorem serveWithin_evaluations (fuel : Nat) (f : Filter σ) (s : System) (c : Channel) :
    Evaluations programs f s (serveWithin programs fuel f s c).filter
      (serveWithin programs fuel f s c).system := by
  induction fuel generalizing f s c with
  | zero => exact .refl
  | succ fuel ih =>
    rw [serveWithin]
    split
    · exact .refl
    · exact .refl
    · next c line _ =>
      split
      · exact .refl
      · exact .refl
      · have hevaluation : Evaluations programs f s (f.evaluate programs remoteObject c s).filter
            (f.evaluate programs remoteObject c s).system :=
          .step remoteObject c .refl
        dsimp only
        split
        · split
          · exact hevaluation
          · exact hevaluation.trans (ih _ _ _)
        · split
          · exact hevaluation
          · split
            · exact hevaluation
            · exact hevaluation.trans (ih _ _ _)

theorem welcome_evaluations (f : Filter σ) (s : System) (c : Channel) :
    Evaluations programs f s (welcome programs f s c).filter (welcome programs f s c).system := by
  rw [welcome]
  split
  · exact .refl
  · exact serveWithin_evaluations _ _ _ _

/-- A run without a filter: nothing was started, or the start has failed and left nothing. -/
structure Unserved (config : Config) (s s' : System) : Prop where
  launches : s'.launches = s.launches
  unused : s.displays.Unused s'.displays
  cleared : s'.disk = s.disk ∨ Cleared config.sources s.temporary s.disk s'.disk

theorem Unserved.of_unstarted {s s' : System} {e : Error} (h : Unstarted config s s' e)
    (hne : e ≠ .hung) : Unserved config s s' := by
  cases h with
  | script hs =>
    subst hs
    exact ⟨rfl, .refl _, .inl rfl⟩
  | workspace _ hcleared hdisplays hlaunches =>
    exact ⟨hlaunches, hdisplays ▸ .refl _, .inr hcleared⟩
  | display _ hcleared hunused hlaunches => exact ⟨hlaunches, hunused, .inr hcleared⟩
  | worker hcleared hunused hlaunches => exact ⟨hlaunches, hunused, .inr hcleared⟩
  | hung => exact absurd rfl hne

theorem run_released (programs : Programs σ) (config : Config) (s : System) (c : Channel)
    (hreturns : (run programs config s c).answer ≠ .error .hung) :
    (∀ f, (run programs config s c).filter = some f →
      Released programs config s (run programs config s c).system f.worker) ∧
    ((run programs config s c).filter = none →
      Unserved config s (run programs config s c).system) := by
  have hnothing : Unserved config s s := ⟨rfl, .refl _, .inl rfl⟩
  unfold run at hreturns ⊢
  split
  · exact ⟨by rintro f ⟨⟩, fun _ => hnothing⟩
  · exact ⟨by rintro f ⟨⟩, fun _ => hnothing⟩
  · next c startup hstartup =>
    obtain ⟨hunstarted, hstarted⟩ := start_unstarted_or_started programs config startup.filterName
      startup.args startup.blob s
    rw [hstartup] at hreturns
    dsimp only at hreturns
    split
    · next e s₁ hstart =>
      rw [hstart] at hreturns
      refine ⟨by rintro f ⟨⟩, fun _ => .of_unstarted (hunstarted e s₁ hstart) ?_⟩
      rintro rfl
      exact hreturns rfl
    · next f s₁ hstart =>
      obtain ⟨workspace, lease, hf⟩ := hstarted f s₁ hstart
      have hreleased := hf.released (welcome_evaluations f s₁ c).uses
      refine ⟨?_, by rintro ⟨⟩⟩
      rintro f' ⟨⟩
      exact hreleased

end Host

/-- **Everything is released on every path.** Whatever objects a filter has scored since it was
started and whatever came of that, finishing it releases all that was started, and so does dropping
it. So does a run for the host that returns, if it has started a filter; else nothing is left of the
start. A teardown takes effect once: nothing can be done with the worker after that. -/
theorem released_on_every_path (programs : Programs σ) (config : Config) (s : System) :
    (∀ filterName args bundle f₀ s₁,
      Filter.start programs config filterName args bundle s = (.ok f₀, s₁) →
      ∀ f s₂, Filter.Evaluations programs f₀ s₁ f s₂ →
        Filter.Released programs config s (f.finish programs s₂).2.1
          (f.finish programs s₂).1.worker ∧
        Filter.Released programs config s (f.drop programs s₂).2
          (f.drop programs s₂).1.worker) ∧
    (∀ c, (Host.run programs config s c).answer ≠ .error .hung →
      (∀ f, (Host.run programs config s c).filter = some f →
        Filter.Released programs config s (Host.run programs config s c).system f.worker) ∧
      ((Host.run programs config s c).filter = none →
        Host.Unserved config s (Host.run programs config s c).system)) ∧
    ∀ (w : Worker σ) (s : System), (w.teardown programs.worker s).1.Spent programs.worker := by
  refine ⟨?_, Host.run_released programs config s, fun w s => ?_⟩
  · intro filterName args bundle f₀ s₁ hstart f s₂ hevaluations
    obtain ⟨-, hstarted⟩ :=
      Filter.start_unstarted_or_started programs config filterName args bundle s
    obtain ⟨workspace, lease, hf⟩ := hstarted f₀ s₁ hstart
    have hreleased := hf.released hevaluations.uses
    exact ⟨hreleased, hreleased⟩
  · refine Worker.spent_of_tornDown ?_
    by_cases hdown : w.tornDown = true
    · rw [Worker.teardown, if_pos hdown]
      exact hdown
    · rw [Worker.teardown, if_neg hdown]

namespace Filter

/-- A worker that gives the result seven for anything. -/
def repliesSeven : Programs Unit :=
  { smallPrograms with
    worker := fun _ unread =>
      if unread = [] then ([], ())
      else ([.consume unread.length, .emit (ascii "BEGIN\nRESULT\n1\n7\n")], ()) }

/-- An object with data, which takes all that is written to it. -/
def smallStore : ObjectStore Unit where
  read _ _ := ((), .ok (some (ascii "IMG")))
  write _ _ _ := ((), .ok ())

end Filter

/-- A filter that was started, has scored an object and was then dropped. -/
theorem dropped_small :
    ∃ f s e, Filter.start Filter.repliesSeven { sources := smallSources } "imagej" ["c2NvcmUA"] []
        Filter.smallSystem = (.ok f, s) ∧
      f.evaluate Filter.repliesSeven Filter.smallStore () s = e ∧ e.answer = .ok 7 ∧
      Filter.Released Filter.repliesSeven { sources := smallSources } Filter.smallSystem
        (e.filter.drop Filter.repliesSeven e.system).2
        (e.filter.drop Filter.repliesSeven e.system).1.worker := by
  have hscore :
      let started := Filter.start Filter.repliesSeven { sources := smallSources } "imagej"
        ["c2NvcmUA"] [] Filter.smallSystem
      (started.1.bind fun f =>
        (f.evaluate Filter.repliesSeven Filter.smallStore () started.2).answer) = .ok 7 := by
    decide +kernel
  dsimp only at hscore
  obtain ⟨hreleased, -⟩ := released_on_every_path Filter.repliesSeven { sources := smallSources }
    Filter.smallSystem
  rcases hrun : Filter.start Filter.repliesSeven { sources := smallSources } "imagej" ["c2NvcmUA"]
    [] Filter.smallSystem with ⟨e | f, s⟩
  · rw [hrun] at hscore
    cases hscore
  · rw [hrun] at hscore
    exact ⟨f, s, _, rfl, rfl, hscore, (hreleased _ _ _ f s hrun _ _ (.step _ () .refl)).2⟩

end ImageScoring
