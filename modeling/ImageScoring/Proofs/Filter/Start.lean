import ImageScoring.Filter
import ImageScoring.Proofs.Display.Allocation
import ImageScoring.Proofs.Workspace.Setup

/-!
# Starting filters

A filter is started in stages: the name of its script is found, a workspace is set up, a display is
taken, and the worker is started. Either every stage succeeds and there is one workspace and one
worker more, or the error tells the stage that failed, no later one was begun, and nothing is left
of the earlier ones (`start_all_or_nothing`).
-/

namespace ImageScoring

open Workspace Disk DiskAction

variable {σ : Type}

/-! ### Displays -/

/-- More servers were started, and none of them runs. -/
def Displays.Unused (d d' : Displays) : Prop :=
  ∃ tried, d'.servers = d.servers ++ tried ∧ Stopped tried

theorem Displays.Unused.refl (d : Displays) : d.Unused d :=
  ⟨[], (List.append_nil _).symm, by simp [Stopped]⟩

namespace Filter

/-- A lease that was taken: that of the fixed display, or that of a display whose server was
started, and then no other server that was started runs. -/
inductive Leased (config : Config) (d d' : Displays) : Lease → Prop where
  | fixed {number : Nat} : config.fixedDisplay = some number → d' = d →
      Leased config d d' { display := number }
  | own {tried : List Server} {server : Server} : config.fixedDisplay = none →
      d'.servers = d.servers ++ tried ++ [server] → Stopped tried →
      Leased config d d' ⟨server.display, some (d.servers ++ tried).length⟩

/-- The errors of taking a display. -/
inductive DisplayError : Error → Prop where
  | failed {cause : String} : DisplayError (.display cause)
  | exhausted {count : Nat} : DisplayError (.displayExhausted count)

/-- What taking a display leaves. -/
inductive Taken (config : Config) (d d' : Displays) : Except Error Lease → Prop where
  | leased {lease : Lease} : Leased config d d' lease → Taken config d d' (.ok lease)
  | failed {e : Error} : DisplayError e → d.Unused d' → Taken config d d' (.error e)
  | hung : Taken config d d' (.error .hung)

theorem takeDisplay_taken (programs : Programs σ) (config : Config) (s : System) :
    ∃ displays, (takeDisplay programs config s).2 = { s with displays := displays } ∧
      Taken config s.displays displays (takeDisplay programs config s).1 := by
  rw [takeDisplay]
  split
  · next number hfixed => exact ⟨s.displays, rfl, .leased (.fixed hfixed rfl)⟩
  · next hfixed =>
    have hsearch := Displays.allocate_searched (programs.startServer s.disk) config.server
      config.maxDisplays s.displays
    rcases hresult : Displays.allocate (programs.startServer s.disk) config.server
      config.maxDisplays s.displays with ⟨answer, displays⟩
    rw [hresult] at hsearch
    refine ⟨displays, rfl, ?_⟩
    cases answer with
    | ok lease =>
      cases hsearch with
      | taken hservers htried => exact .leased (.own hfixed hservers htried)
    | error e =>
      cases hsearch with
      | failed hservers htried => exact .failed .failed ⟨_, hservers, htried⟩
      | exhausted hservers htried => exact .failed .exhausted ⟨_, hservers, htried⟩
      | hung => exact .hung

/-- After its release no server that was started for a lease runs. -/
theorem Leased.release {config : Config} {d d' : Displays} {lease : Lease}
    (h : Leased config d d' lease) : d.Unused (lease.release d').2 := by
  cases h with
  | fixed _ hd =>
    subst hd
    exact .refl _
  | own _ hservers htried =>
    refine ⟨_, Displays.release_taken hservers, htried.append ?_⟩
    simp [Stopped]

/-! ### All stages -/

/-- A filter that was started: its workspace was set up, a display was taken, and one worker was
started, in the worker's directory of the workspace and on that display. -/
structure Started (programs : Programs σ) (config : Config) (s s' : System) (workspace : Workspace)
    (lease : Lease) (worker : Worker σ) : Prop where
  made : Made config.sources s.temporary s.disk workspace s'.disk
  leased : Leased config s.displays s'.displays lease
  launches : s'.launches = s.launches ++ [⟨config.worker, workspace.workerDir, lease.address⟩]
  worker : ∃ state, config.worker.started (programs.startWorker s'.disk
      ⟨config.worker, workspace.workerDir, lease.address⟩) = .ok state ∧
    worker = { process := { state := state }, lease := some lease, workspace := some workspace }

/-- A filter that was not started: which stage has failed, and what was done and undone by then. -/
inductive Unstarted (config : Config) (s s' : System) : Error → Prop where
  | script {cause : String} : s' = s → Unstarted config s s' (.scriptName cause)
  | workspace {e : Error} : SetupError e →
      Cleared config.sources s.temporary s.disk s'.disk →
      s'.displays = s.displays → s'.launches = s.launches → Unstarted config s s' e
  | display {e : Error} : DisplayError e →
      Cleared config.sources s.temporary s.disk s'.disk →
      s.displays.Unused s'.displays → s'.launches = s.launches → Unstarted config s s' e
  | worker {cause : String} : Cleared config.sources s.temporary s.disk s'.disk →
      s.displays.Unused s'.displays → s'.launches = s.launches →
      Unstarted config s s' (.spawn cause)
  /-- A display server neither gets ready nor ends, and the start never returns. -/
  | hung : Unstarted config s s' .hung

theorem Unstarted.isFatal {config : Config} {s s' : System} {e : Error}
    (h : Unstarted config s s' e) (hne : e ≠ .hung) : e.isFatal = true := by
  cases h with
  | script _ => rfl
  | workspace he => cases he <;> rfl
  | display he => cases he <;> rfl
  | worker => rfl
  | hung => exact absurd rfl hne

/-- The disk without the workspace that was made there. -/
theorem cleared_of_made {sources : Sources} {temporary : Path} {d d' : Disk} {w : Workspace}
    (h : Made sources temporary d w d') : Cleared sources temporary d (w.remove d') := by
  obtain ⟨d₀, hrun⟩ := h.fresh
  refine ⟨fun e d₁ hunmade => ?_, fun place root d₁ hmade names => ?_, fun hd hc hl => ?_⟩
  · rw [hrun] at hunmade
    cases hunmade
  · rw [hrun] at hmade
    cases hmade
    exact find?_eraseTree_append (ne_nil_of_vacant h.vacant) names
  · exact (h.isolated hd hc hl).removed

/-- The last two stages, in a workspace that was set up. -/
theorem startWorker_all_or_nothing (programs : Programs σ) (config : Config) {s : System}
    {disk : Disk} {workspace : Workspace}
    (hmade : Made config.sources s.temporary s.disk workspace disk) :
    (∀ worker s', startWorker programs config workspace { s with disk := disk } = (.ok worker, s') →
      ∃ lease, Started programs config s s' workspace lease worker) ∧
    ∀ e s', startWorker programs config workspace { s with disk := disk } = (.error e, s') →
      Unstarted config s s' e := by
  obtain ⟨displays, hsystem, htaken⟩ := takeDisplay_taken programs config { s with disk := disk }
  rcases htake : takeDisplay programs config { s with disk := disk } with ⟨answer, s₁⟩
  rw [htake] at hsystem htaken
  dsimp only at hsystem htaken
  subst hsystem
  rw [startWorker, htake]
  cases htaken with
  | failed he hunused =>
    refine ⟨by rintro worker s' ⟨⟩, ?_⟩
    rintro e s' ⟨⟩
    exact .display he (cleared_of_made hmade) hunused rfl
  | hung =>
    refine ⟨by rintro worker s' ⟨⟩, ?_⟩
    rintro e s' ⟨⟩
    exact .hung
  | @leased lease hleased =>
    dsimp only
    rw [Worker.spawn]
    dsimp only
    split
    · refine ⟨by rintro worker s' ⟨⟩, ?_⟩
      rintro e s' ⟨⟩
      exact .worker (cleared_of_made hmade) hleased.release rfl
    · next state hstate =>
      refine ⟨?_, by rintro e s' ⟨⟩⟩
      rintro worker s' ⟨⟩
      exact ⟨lease, hmade, hleased, rfl, state, hstate, rfl⟩

/-- What a start leaves, by its answer. -/
theorem start_unstarted_or_started (programs : Programs σ) (config : Config) (filterName : String)
    (args : List String) (bundle : Bytes) (s : System) :
    (∀ e s', start programs config filterName args bundle s = (.error e, s') →
      Unstarted config s s' e) ∧
    ∀ f s', start programs config filterName args bundle s = (.ok f, s') →
      ∃ workspace lease, Started programs config s s' workspace lease f.worker := by
  rw [start]
  split
  · refine ⟨?_, by rintro f s' ⟨⟩⟩
    rintro e s' ⟨⟩
    exact .script rfl
  · obtain ⟨hok, herror⟩ := ensures_bootstrap config.sources bundle s.disk rfl
    split
    · next e disk hrun =>
      refine ⟨?_, by rintro f s' ⟨⟩⟩
      rintro e s' ⟨⟩
      obtain ⟨he, hcleared⟩ := herror _ _ hrun
      exact .workspace he hcleared rfl rfl
    · next workspace disk hrun =>
      obtain ⟨hstarted, hunstarted⟩ :=
        startWorker_all_or_nothing programs config (hok workspace disk hrun)
      split
      · next e s₁ hstart =>
        refine ⟨?_, by rintro f s' ⟨⟩⟩
        rintro e s' ⟨⟩
        exact hunstarted _ _ hstart
      · next worker s₁ hstart =>
        refine ⟨by rintro e s' ⟨⟩, ?_⟩
        rintro f s' ⟨⟩
        obtain ⟨lease, hworker⟩ := hstarted _ _ hstart
        exact ⟨workspace, lease, hworker⟩

/-- How a filter deals with objects and replies is as it was configured. -/
theorem settings_of_start {programs : Programs σ} {config : Config} {filterName : String}
    {args : List String} {bundle : Bytes} {s s' : System} {f : Filter σ}
    (h : start programs config filterName args bundle s = (.ok f, s')) :
    f.replyForm = config.replyForm ∧ f.imageSource = config.imageSource ∧
      f.framingPolicy = config.framingPolicy := by
  unfold start at h
  split at h
  · cases h
  · split at h
    · cases h
    · split at h
      · cases h
      · cases h
        exact ⟨rfl, rfl, rfl⟩

/-- A worker that does nothing, and display servers that are ready at once. -/
def smallPrograms : Programs Unit where
  worker := fun _ _ => ([], ())
  startWorker _ _ := .ok ()
  startServer _ _ _ := .ok [[.ready]]

def smallSystem : System where
  disk := smallDisk
  temporary := ascii "/tmp"

end Filter

end ImageScoring
