import ImageScoring.Proofs.Workspace.Isolation

/-!
# Workspaces that are there or not

Setting a workspace up makes a new directory. It is there afterwards, or the set-up has failed and
nothing is left of it, whatever the sources and the bundle are (`ensures_bootstrap`).
-/

namespace ImageScoring

open ImageScoring.Path

namespace Workspace

open Disk DiskAction

variable {sources : Sources} {temporary path : Path} {d₀ d d' : Disk} {root : Place}

/-! ### Directories stay -/

/-- Anything may change. -/
abbrev Anything (_ : Place) (_ : Option Node) : Prop :=
  True

/-- A path goes on leading where it led when a file is copied. -/
theorem ensures_copy_leads {source target : Path} :
    Ensures (fun d => d.WellFormed ∧ d.Leads path root) (copy source target)
      (fun _ d => d.Leads path root) (fun _ _ => True) := by
  refine ensures_copy ?_ fun _ _ _ => trivial
  rintro d origin octets spot ⟨hwf, hleads⟩ - - hl hno
  exact (hleads.keeps (keeps_put_at hwf hl hno)).keeps
    (keeps_put_file (find?_put_self (ne_nil_of_not_hasDir hno)))

theorem ensures_copy_changes (h₀ : d₀.WellFormed) {source target : Path} :
    Ensures (Changes Anything d₀) (copy source target) (fun _ => Changes Anything d₀)
      (fun _ _ => True) := by
  refine ensures_copy ?_ fun _ _ _ => trivial
  rintro d origin octets spot hd - - hl hno
  have hput : Changes Anything d₀ (d.put spot.place (.file [])) :=
    hd.put_file (hd.wellFormed h₀) hl hno trivial
  exact hput.put_content (find?_put_self (ne_nil_of_not_hasDir hno)) trivial

theorem ensures_makeDir_changes (h₀ : d₀.WellFormed) {mode : Nat} :
    Ensures (Changes Anything d₀) (makeDir path mode) (fun _ => Changes Anything d₀)
      (fun _ _ => True) :=
  ensures_makeDir (fun _ _ hd hl hnone => hd.put_vacant (hd.wellFormed h₀) hl hnone trivial)
    (fun _ _ => trivial) fun _ _ _ _ => trivial

theorem ensures_makeDirs_changes (h₀ : d₀.WellFormed) :
    Ensures (Changes Anything d₀) (makeDirs path) (fun _ => Changes Anything d₀)
      (fun _ _ => True) := by
  have hkeeps : Ensures (Changes Anything d₀) (makeDirs path) (fun _ => Changes Anything d₀)
      (fun _ => Changes Anything d₀) :=
    ensures_makeDirs_of_keeps fun _ _ _ hd hl hnone =>
      hd.put_vacant (hd.wellFormed h₀) hl hnone trivial
  exact hkeeps.weaken (fun _ hd => hd) (fun _ _ hd => hd) fun _ _ _ => trivial

theorem ensures_unpackBundle_changes (h₀ : d₀.WellFormed) (bundle : Bytes) {directory : Path} :
    Ensures (Changes Anything d₀) (unpackBundle bundle directory) (fun _ => Changes Anything d₀)
      (fun _ _ => True) := by
  refine ensures_adapt ?_
  intro d hd
  -- The path leads to one place at most.
  obtain ⟨place, hplace⟩ : ∃ place, ∀ other, d.locate true directory = .ok (.reached other) →
      other = place := by
    by_cases h : ∃ place, d.locate true directory = .ok (.reached place)
    · obtain ⟨place, hl⟩ := h
      refine ⟨place, fun other hother => ?_⟩
      rw [hl] at hother
      cases hother
      rfl
    · exact ⟨[], fun other hother => absurd ⟨other, hother⟩ h⟩
  obtain ⟨hok, -⟩ := Tar.ensures_unpack (hd.wellFormed h₀) bundle hplace d rfl
  exact ⟨fun _ d' hrun => hd.trans ((hok _ d' hrun).mono fun _ _ _ => trivial),
    fun _ _ _ => trivial⟩

theorem ensures_unpackWorker_changes (h₀ : d₀.WellFormed) (hleads : d₀.Leads path root)
    (hroot : d₀.HasDir root) :
    Ensures (· = d₀) (unpackWorker sources path) (fun _ => Changes Anything d₀)
      (fun _ _ => True) := by
  have hcopy : Ensures (· = d₀)
      (copy sources.archivePath (join path (.ofText sources.workerArchive)))
      (fun _ d => Changes Anything d₀ d ∧ d.Leads path root) (fun _ _ => True ∧ True) :=
    ((ensures_copy_changes h₀).of_pre (by rintro d rfl; exact .refl)).and
      (ensures_copy_leads.of_pre (by rintro d rfl; exact ⟨h₀, hleads⟩))
  have hopen : Ensures (fun d => Changes Anything d₀ d ∧ d.Leads path root)
      (look (·.canonical (join path (.ofText sources.workerArchive))))
      (fun _ d => Changes Anything d₀ d ∧ d.Leads path root) (fun (_ : FileFault) _ => True) :=
    ensures_look (fun _ _ hd _ => hd) fun _ _ _ _ => trivial
  have hextract : ∀ archive, Ensures (fun d => Changes Anything d₀ d ∧ d.Leads path root)
      (Zip.extract archive path) (fun _ => Changes Anything d₀) (fun _ _ => True) := by
    rintro archive d ⟨hd, hleads⟩
    obtain ⟨hok, -⟩ :=
      Zip.ensures_extract (hd.wellFormed h₀) archive hleads (hd.hasDir hroot) d rfl
    exact ⟨fun _ d' hrun => hd.trans ((hok _ d' hrun).mono fun _ _ _ => trivial),
      fun _ _ _ => trivial⟩
  refine ensures_bind (ensures_adapt (hcopy.weaken (fun _ h => h) (fun _ _ h => h)
    fun _ _ _ => trivial)) fun _ => ?_
  refine ensures_bind (ensures_adapt hopen) fun archive => ?_
  refine ensures_bind (ensures_adapt (hextract archive)) fun _ => ?_
  have hget : Ensures (Changes Anything d₀) (get : DiskAction Error Disk)
      (fun _ => Changes Anything d₀) (fun _ _ => True) :=
    ensures_get fun _ hd => hd
  refine ensures_bind hget fun now => ?_
  split
  · exact ensures_pure fun _ hd => hd
  · exact ensures_throw fun _ _ => trivial

/-- Filling a directory takes no directory away, wherever the names of its sources lead. -/
theorem ensures_populate_changes (h₀ : d₀.WellFormed) (hleads : d₀.Leads path root)
    (hroot : d₀.HasDir root) (bundle : Bytes) :
    Ensures (· = d₀) (populate sources bundle path) (fun _ => Changes Anything d₀)
      (fun _ _ => True) := by
  refine ensures_bind (ensures_unpackWorker_changes h₀ hleads hroot) fun workerDir => ?_
  refine ensures_bind (ensures_adapt (ensures_copy_changes h₀)) fun _ => ?_
  refine ensures_bind (ensures_adapt (ensures_makeDirs_changes h₀)) fun _ => ?_
  refine ensures_bind (ensures_adapt (ensures_copy_changes h₀)) fun _ => ?_
  refine ensures_bind (ensures_adapt (ensures_makeDir_changes h₀)) fun _ => ?_
  refine ensures_bind (ensures_unpackBundle_changes h₀ bundle) fun _ => ?_
  refine ensures_bind (ensures_adapt (ensures_makeDirs_changes h₀)) fun _ => ?_
  refine ensures_bind (ensures_unpackBundle_changes h₀ bundle) fun _ => ?_
  exact ensures_pure fun _ hd => hd

/-! ### What the errors are -/

/-- The errors of setting a workspace up. -/
inductive SetupError : Error → Prop where
  | workspace {cause : String} : SetupError (.workspace cause)
  | archive {cause : String} : SetupError (.archive cause)

theorem ensures_adapt_fails {α : Type} {R : Prop} {ε : Type} {f : ε → Error}
    {action : DiskAction ε α} (hf : ∀ e, SetupError (f e)) :
    Ensures (fun _ => R) (ExceptT.adapt f action) (fun _ _ => R) (fun e _ => SetupError e) :=
  ensures_adapt (ensures_fact.weaken (fun _ hr => hr) (fun _ _ hr => hr) fun e _ _ => hf e)

/-- The worker's directory is where the sources say, and there are no other errors. -/
theorem ensures_populate_fails (bundle : Bytes) :
    Ensures (fun _ => True) (populate sources bundle path)
      (fun workerDir _ => workerDir = join path (.ofText sources.workerDir))
      (fun e _ => SetupError e) := by
  have hstep : ∀ {R : Prop} {α : Type} {what : String} {path : Path}
      {action : DiskAction FileFault α},
      Ensures (fun _ => R) (step what path action) (fun _ _ => R) (fun e _ => SetupError e) :=
    ensures_adapt_fails fun _ => .workspace
  have hunpack : ∀ {R : Prop} {directory : Path},
      Ensures (fun _ => R) (unpackBundle bundle directory) (fun _ _ => R)
        (fun e _ => SetupError e) :=
    ensures_adapt_fails fun _ => .workspace
  have hworker : Ensures (fun _ => True) (unpackWorker sources path)
      (fun workerDir _ => workerDir = join path (.ofText sources.workerDir))
      (fun e _ => SetupError e) := by
    refine ensures_bind hstep fun _ => ?_
    refine ensures_bind hstep fun archive => ?_
    refine ensures_bind (ensures_adapt_fails fun _ => .archive) fun _ => ?_
    have hget : Ensures (fun _ => True) (get : DiskAction Error Disk) (fun _ _ => True)
        (fun e _ => SetupError e) :=
      ensures_get fun _ _ => trivial
    refine ensures_bind hget fun now => ?_
    split
    · exact ensures_pure fun _ _ => rfl
    · exact ensures_throw fun _ _ => .workspace
  refine ensures_bind hworker fun workerDir => ?_
  refine ensures_bind hstep fun _ => ?_
  refine ensures_bind hstep fun _ => ?_
  refine ensures_bind hstep fun _ => ?_
  refine ensures_bind hstep fun _ => ?_
  refine ensures_bind hunpack fun _ => ?_
  refine ensures_bind hstep fun _ => ?_
  refine ensures_bind hunpack fun _ => ?_
  exact ensures_pure fun _ hdir => hdir

/-! ### What is left -/

/-- A workspace that was set up: it lies in the new directory. -/
structure Made (sources : Sources) (temporary : Path) (d : Disk) (w : Workspace) (d' : Disk) :
    Prop where
  fresh : ∃ d₀, (makeFreshDir temporary stem).run d = (.ok (w.place, w.root), d₀)
  vacant : d.find? w.place = none
  workerDir : w.workerDir = join w.root (.ofText sources.workerDir)
  hasDir : d.WellFormed → d'.HasDir w.place
  isolated : d.WellFormed → sources.Contained → Untangled sources temporary d → Isolated d w d'

/-- No workspace is left: of the new directory, if one could be made, there is nothing, and if the
names of its sources stayed in it, everything is as it was. -/
structure Cleared (sources : Sources) (temporary : Path) (d d' : Disk) : Prop where
  unmade : ∀ e d₀, (makeFreshDir temporary stem).run d = (.error e, d₀) → d' = d
  removed : ∀ place root d₀, (makeFreshDir temporary stem).run d = (.ok (place, root), d₀) →
    ∀ names, d'.find? (place ++ names) = none
  restored : d.WellFormed → sources.Contained → Untangled sources temporary d → d' = d

theorem find?_eraseTree_append (hne : root ≠ []) (names : List Name) :
    (d.eraseTree root).find? (root ++ names) = none :=
  find?_eraseTree_of_inside (by simp [hne]) (List.isPrefixOf_iff_prefix.mpr (List.prefix_append ..))

theorem ensures_bootstrap_new (sources : Sources) (bundle : Bytes) :
    Ensures (· = d) (bootstrap temporary sources bundle)
      (fun w d' => (∃ d₀, (makeFreshDir temporary stem).run d = (.ok (w.place, w.root), d₀)) ∧
        d.find? w.place = none ∧ w.workerDir = join w.root (.ofText sources.workerDir) ∧
        (d.WellFormed → d'.HasDir w.place))
      (fun e d' => SetupError e ∧
        (∀ e d₀, (makeFreshDir temporary stem).run d = (.error e, d₀) → d' = d) ∧
        ∀ place root d₀, (makeFreshDir temporary stem).run d = (.ok (place, root), d₀) →
          ∀ names, d'.find? (place ++ names) = none) := by
  refine ensures_bind (ensures_adapt (ensures_fresh.weaken (fun _ h => h) (fun _ _ h => h) ?_)) ?_
  · rintro e d' ⟨rfl, hrun⟩
    refine ⟨.workspace, fun _ _ _ => rfl, fun place root d₀ hmade => ?_⟩
    rw [hrun] at hmade
    cases hmade
  rintro ⟨place, root⟩ d₀ ⟨hnew, hrun⟩
  have hchanges : Ensures (· = d₀) (populate sources bundle root)
      (fun _ d' => d.WellFormed → Changes Anything d₀ d') (fun _ _ => True) := by
    by_cases hd : d.WellFormed
    · exact (ensures_populate_changes (hnew.wellFormed hd) (hnew.leads hd) hnew.hasDir
        bundle).to_post fun _ _ hc _ => hc
    · exact ensures_fact.weaken (fun _ _ => hd) (fun _ _ hno hd => absurd hd hno) fun _ _ h => h
  have hfails : Ensures (· = d₀) (populate sources bundle root)
      (fun workerDir _ => workerDir = join root (.ofText sources.workerDir))
      (fun e _ => SetupError e) :=
    (ensures_populate_fails bundle).of_pre fun _ _ => trivial
  have hundo : ∀ e : Error, Ensures (fun _ => SetupError e ∧ True)
      (do modify (·.eraseTree place); throw e : DiskAction Error Path)
      (fun workerDir d' => workerDir = join root (.ofText sources.workerDir) ∧
        (d.WellFormed → Changes Anything d₀ d'))
      (fun e d' => SetupError e ∧ ∀ names, d'.find? (place ++ names) = none) := fun e =>
    ensures_undo fun d' he => ⟨he.1, find?_eraseTree_append hnew.ne_nil⟩
  have hundone : ∀ (e : Error) (d' : Disk),
      (SetupError e ∧ ∀ names, d'.find? (place ++ names) = none) →
      SetupError e ∧ (∀ e d₀, (makeFreshDir temporary stem).run d = (.error e, d₀) → d' = d) ∧
        ∀ place root d₀, (makeFreshDir temporary stem).run d = (.ok (place, root), d₀) →
          ∀ names, d'.find? (place ++ names) = none := by
    rintro e d' ⟨he, hnone⟩
    refine ⟨he, fun e d₀ hmade => ?_, fun place root d₀ hmade => ?_⟩
    · rw [hrun] at hmade
      cases hmade
    · rw [hrun] at hmade
      cases hmade
      exact hnone
  refine ensures_bind ((ensures_tryCatch (hfails.and hchanges) hundo).weaken (fun _ h => h)
    (fun _ _ h => h) hundone) (fun workerDir => ?_) d₀ rfl
  refine ensures_pure fun d' hd' => ⟨⟨d₀, hrun⟩, hnew.vacant, hd'.1, fun hd => ?_⟩
  exact (hd'.2 hd).hasDir hnew.hasDir

/-- **A workspace that is set up is there, and of one that is not nothing is left.** -/
theorem ensures_bootstrap (sources : Sources) (bundle : Bytes) :
    Ensures (· = d) (bootstrap temporary sources bundle)
      (fun w d' => Made sources temporary d w d')
      (fun e d' => SetupError e ∧ Cleared sources temporary d d') := by
  have hisolated : Ensures (· = d) (bootstrap temporary sources bundle)
      (fun w d' => d.WellFormed → sources.Contained → Untangled sources temporary d →
        Isolated d w d')
      (fun _ d' => d.WellFormed → sources.Contained → Untangled sources temporary d → d' = d) := by
    by_cases h : d.WellFormed ∧ sources.Contained ∧ Untangled sources temporary d
    · exact (ensures_bootstrap_isolated h.1 h.2.1 h.2.2 bundle).weaken (fun _ hd => hd)
        (fun _ _ hi _ _ _ => hi) fun _ _ hi _ _ _ => hi
    · exact fun _ _ => ⟨fun _ _ _ h₁ h₂ h₃ => absurd ⟨h₁, h₂, h₃⟩ h,
        fun _ _ _ h₁ h₂ h₃ => absurd ⟨h₁, h₂, h₃⟩ h⟩
  refine ((ensures_bootstrap_new sources bundle).and hisolated).weaken (fun _ hd => hd) ?_ ?_
  · rintro w d' ⟨⟨hfresh, hvacant, hworker, hdir⟩, hi⟩
    exact ⟨hfresh, hvacant, hworker, hdir, hi⟩
  · rintro e d' ⟨⟨he, hunmade, hremoved⟩, hrestored⟩
    exact ⟨he, hunmade, hremoved, hrestored⟩

end Workspace

end ImageScoring
