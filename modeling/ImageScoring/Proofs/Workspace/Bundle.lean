import ImageScoring.Proofs.Archive.Contents
import ImageScoring.Proofs.Workspace.Isolation

/-!
# Where the bundle lands

Setting a workspace up comes down to furnishing the worker's directory, which has nothing to do with
the bundle (`furnish`), and to unpacking the bundle twice (`spread`). Nothing outside the two
directories is touched by it, and without links both hold the same tree in the end
(`bundle_lands_twice`).
-/

namespace ImageScoring

open ImageScoring.Path

/-! ### The usual sources -/

namespace Sources

/-- The sources in a directory, under their usual names. -/
def usual (assetDir : Path) : Sources where
  assetDir := assetDir

/-- The names from a workspace down to the directory for the plugin's data. -/
def dataNames : List Name := [ascii "ImageJ", Workspace.pluginsName, ascii "Diamond"]

/-- The names from a workspace down to the directory of scripts. -/
def scriptNames : List Name := [ascii "ImageJ", Workspace.macrosName]

variable {assetDir : Path}

theorem workerRoute_usual : (usual assetDir).workerRoute = [ascii "ImageJ"] := by
  change steps (.ofText "ImageJ") = _
  decide +kernel

theorem routes_usual : (usual assetDir).routes =
    [[ascii "ImageJ", ascii "ijloader.jar"],
      [ascii "ImageJ", Workspace.pluginsName, ascii "diamond_filter.jar"],
      dataNames, scriptNames] := by
  change [steps (.ofText "ImageJ") ++ steps (.ofText "ijloader.jar"),
    steps (.ofText "ImageJ") ++ steps Workspace.pluginsName ++
      steps (.ofText "diamond_filter.jar"),
    steps (.ofText "ImageJ") ++ steps Workspace.pluginsName ++ steps (.ofText "Diamond"),
    steps (.ofText "ImageJ") ++ steps Workspace.macrosName] = _
  decide +kernel

/-- The usual routes lead straight down. -/
theorem named_usual {route : List Name} (h : route ∈ (usual assetDir).routes) :
    ∀ name ∈ route, Named name := by
  have hproper : ∀ route ∈ (usual assetDir).routes, ∀ name ∈ route, Name.Proper name := by
    rw [routes_usual]
    decide +kernel
  intro name hname
  have hn := hproper route h name hname
  exact ⟨not_or.mpr ⟨hn.ne_nil, hn.ne_dot⟩, hn.ne_dotDot⟩

theorem walk_usual {route : List Name} (h : route ∈ (usual assetDir).routes) {root : Place} :
    walk root route = root ++ route :=
  walk_of_named (named_usual h) root

theorem contained_usual : (usual assetDir).Contained where
  relative := by
    change ∀ name ∈ ["ImageJ.zip", "ImageJ", "ijloader.jar", "diamond_filter.jar", "Diamond"],
      isAbsolute (.ofText name) = false
    decide +kernel
  below := by
    change ∀ route ∈ [steps (.ofText "ImageJ.zip"),
      steps (.ofText "ImageJ") ++ steps (.ofText "ijloader.jar"),
      steps (.ofText "ImageJ") ++ steps Workspace.pluginsName ++
        steps (.ofText "diamond_filter.jar"),
      steps (.ofText "ImageJ") ++ steps Workspace.pluginsName ++ steps (.ofText "Diamond"),
      steps (.ofText "ImageJ") ++ steps Workspace.macrosName], staysBelow 0 route = true
    decide +kernel

end Sources

/-- A worker's archive of files and directories that has nothing at the place of the scripts. -/
structure Zip.LeavesRoom (octets : Bytes) : Prop where
  unlinked : ∀ names, ¬Zip.Links octets names
  vacant : ∀ names, Zip.Holds octets names → ¬Sources.scriptNames <+: names

namespace Workspace

open Disk DiskAction

variable {sources : Sources} {d₀ d d' : Disk} {temporary path workerDir directory : Path}
  {root worker place : Place} {bundle : Bytes}

/-- Where the plugin's data lies. -/
def dataPlace (w : Workspace) : Place := w.place ++ Sources.dataNames

/-- Where the scripts lie. -/
def scriptPlace (w : Workspace) : Place := w.place ++ Sources.scriptNames

/-! ### Two parts of setting up -/

/-- Fills a new directory as far as the bundle has nothing to do with it. -/
def furnish (sources : Sources) (root : Path) : DiskAction Error Path := do
  let workerDir ← unpackWorker sources root
  step "copying" sources.loaderPath
    (Disk.copy sources.loaderPath (join workerDir (.ofText sources.loader)))
  let plugins := join workerDir pluginsName
  step "creating" plugins (Disk.makeDirs plugins)
  step "copying" sources.pluginPath
    (Disk.copy sources.pluginPath (join plugins (.ofText sources.filterPlugin)))
  let data := join plugins (.ofText sources.dataDir)
  step "creating" data (Disk.makeDir data 0o700)
  return workerDir

/-- Unpacks a bundle twice. -/
def spread (bundle : Bytes) (data macros : Path) : DiskAction Error Unit := do
  unpackBundle bundle data
  step "creating" macros (Disk.makeDirs macros)
  unpackBundle bundle macros

theorem populate_eq : populate sources bundle path = do
    let workerDir ← furnish sources path
    spread bundle (join (join workerDir pluginsName) (.ofText sources.dataDir))
      (join workerDir macrosName)
    return workerDir := by
  simp only [populate, furnish, spread, bind_assoc, pure_bind]

theorem run_populate_iff :
    (populate sources bundle path).run d = (.ok workerDir, d') ↔
      ∃ d₁, (furnish sources path).run d = (.ok workerDir, d₁) ∧
        (spread bundle (join (join workerDir pluginsName) (.ofText sources.dataDir))
          (join workerDir macrosName)).run d₁ = (.ok (), d') := by
  rw [populate_eq]
  constructor
  · intro h
    obtain ⟨found, d₁, hfurnish, hrest⟩ := exists_of_run_bind h
    obtain ⟨⟨⟩, d₂, hspread, hpure⟩ := exists_of_run_bind hrest
    cases hpure
    exact ⟨d₁, hfurnish, hspread⟩
  · rintro ⟨d₁, hfurnish, hspread⟩
    rw [run_bind_of_ok hfurnish, run_bind_of_ok hspread]
    rfl

/-- A workspace is set up by making a new directory and filling it. -/
theorem run_bootstrap_iff {w : Workspace} :
    (bootstrap temporary sources bundle).run d = (.ok w, d') ↔
      ∃ d₀, (makeFreshDir temporary stem).run d = (.ok (w.place, w.root), d₀) ∧
        (populate sources bundle w.root).run d₀ = (.ok w.workerDir, d') := by
  constructor
  · intro h
    obtain ⟨⟨place, root⟩, d₀, hfresh, hrest⟩ := exists_of_run_bind h
    obtain ⟨workerDir, d₁, hpopulate, hpure⟩ := exists_of_run_bind hrest
    cases hpure
    refine ⟨d₀, run_of_run_adapt hfresh, ?_⟩
    rcases hrun : (populate sources bundle root).run d₀ with ⟨e | found, d₂⟩
    · rw [run_tryCatch_of_error hrun] at hpopulate
      cases hpopulate
    · rw [run_tryCatch_of_ok hrun] at hpopulate
      exact hpopulate
  · rintro ⟨d₀, hfresh, hpopulate⟩
    rw [bootstrap, run_bind_of_ok (run_adapt_of_ok hfresh)]
    dsimp only
    rw [run_bind_of_ok (run_tryCatch_of_ok hpopulate)]
    rfl

/-! ### One unpacking -/

/-- A path leads to an empty directory, and is not refused for its octets. -/
structure Vessel (directory : Path) (place : Place) (d : Disk) : Prop where
  wellFormed : d.WellFormed
  leads : d.Leads directory place
  hasDir : d.HasDir place
  empty : ∀ names, names ≠ [] → d.find? (place ++ names) = none
  sound : Sound directory

/-- What unpacking a bundle to an empty directory does. -/
theorem unpackBundle_spec (h : Vessel directory place d)
    (hrun : (unpackBundle bundle directory).run d = (.ok (), d')) :
    Changes (Tar.Unpacks place) d d' ∧
      ∀ members, Tar.members bundle = .ok members → Tar.Unlinked members →
        Tar.Shows d place (Tar.Tree.ofMembers members) d' := by
  have hunpack := run_of_run_adapt hrun
  have hplace : ∀ other, d.locate true directory = .ok (.reached other) → other = place := by
    intro other hl
    rw [h.leads.locate h.sound] at hl
    cases hl
    rfl
  refine ⟨(Tar.ensures_unpack h.wellFormed bundle hplace d rfl).1 () d' hunpack, ?_⟩
  intro members hmembers hlinks
  exact (Tar.ensures_unpack_tree h.wellFormed h.hasDir h.empty hplace hmembers hlinks d rfl).1 ()
    d' hunpack

/-- A bundle without members is unpacked without doing anything. -/
theorem run_unpackBundle_nothing (h : Vessel directory place d)
    (hmembers : Tar.members bundle = .ok []) :
    (unpackBundle bundle directory).run d = (.ok (), d) := by
  obtain ⟨mode, hfind⟩ := h.hasDir
  have hcanonical : (Tar.onDisk (look (·.canonical directory)) : Tar.Unpacking Place).run d =
      (.ok place, d) := by
    refine run_adapt_of_ok ?_
    rw [run_look, canonical, status, h.leads.locate h.sound]
    dsimp only
    rw [hfind]
    rfl
  have hread : (liftM (Tar.members bundle) : Tar.Unpacking (List Tar.Member)).run d =
      (.ok [], d) := by
    rw [hmembers]
    rfl
  have hordered : Tar.ordered [] = [] := by simp [Tar.ordered]
  refine run_adapt_of_ok ?_
  rw [Tar.unpack, run_bind_of_ok hcanonical, run_bind_of_ok hread, hordered]
  rfl

/-! ### The directory of scripts -/

/-- A directory that is not there is the only thing made. -/
theorem makeDirs_spec (hleads : d.Leads workerDir worker)
    (hvacant : d.find? (worker ++ [macrosName]) = none)
    (hrun : (makeDirs (join workerDir macrosName)).run d = (.ok (), d')) :
    d' = d.put (worker ++ [macrosName]) (.dir plainMode) ∧ Sound (join workerDir macrosName) := by
  have hnames := hleads.names_join named_macrosName slash_notMem_macrosName (by simp [hvacant])
  have hne : join workerDir macrosName ≠ [] :=
    join_ne_nil hleads.ne_nil (isAbsolute_of_notMem slash_notMem_macrosName)
  have hmake : Ensures (· = d) (makeDirs (join workerDir macrosName))
      (fun _ d' => d' = d.put (worker ++ [macrosName]) (.dir plainMode) ∧
        Sound (join workerDir macrosName)) (fun _ _ => True) := by
    refine ensures_makeDirs hne ?_ ?_ ?_ fun _ _ _ => trivial
    · rintro d spot rfl hl -
      rw [hnames.place_eq hl]
      exact ⟨rfl, sound_of_locate hl⟩
    · rintro d rfl hisDir
      obtain ⟨there, hl, mode, hdir⟩ := exists_of_isDir hisDir
      have hthere : there = worker ++ [macrosName] := hnames.place_eq hl
      rw [hthere, hvacant] at hdir
      cases hdir
    · rintro d rfl
      exact hnames.not_missing
  exact (hmake d rfl).1 () d' hrun

theorem run_makeDirs_vacant (hleads : d.Leads workerDir worker) (hdir : d.HasDir worker)
    (hvacant : d.find? (worker ++ [macrosName]) = none)
    (hsound : Sound (join workerDir macrosName)) :
    (makeDirs (join workerDir macrosName)).run d =
      (.ok (), d.put (worker ++ [macrosName]) (.dir plainMode)) := by
  have hne : join workerDir macrosName ≠ [] :=
    join_ne_nil hleads.ne_nil (isAbsolute_of_notMem slash_notMem_macrosName)
  have hlook : (look (·.locate false (join workerDir macrosName)) : DiskAction FileFault Spot).run d
      = (.ok (.vacant worker macrosName false), d) := by
    rw [run_look, hleads.locate_vacant hdir (by decide +kernel) hvacant hsound]
  have hvacancy : (vacancy (join workerDir macrosName)).run d =
      (.ok (worker ++ [macrosName], false), d) := by
    rw [vacancy, run_bind_of_ok hlook]
    rfl
  have hmake : (makeDir (join workerDir macrosName) plainMode).run d =
      (.ok (), d.put (worker ++ [macrosName]) (.dir plainMode)) := by
    rw [makeDir, run_bind_of_ok hvacancy]
    rfl
  rw [makeDirs, makeDirsWithin, if_neg hne]
  exact run_tryCatch_of_ok hmake

/-! ### Both unpackings -/

/-- Neither of two places lies in the other. -/
def Apart (place other : Place) : Prop :=
  ¬place <+: other ∧ ¬other <+: place

/-- So nothing below one of them lies in the other. -/
theorem Apart.below {place other : Place} (h : Apart place other) (names : List Name) :
    ¬place <+: other ++ names := by
  intro hwithin
  rcases List.prefix_or_prefix_of_prefix hwithin (List.prefix_append other names) with hp | hp
  · exact h.1 hp
  · exact h.2 hp

/-- The worker's directory is furnished: an empty directory for the plugin's data is there, and
nothing lies at the place of the scripts. -/
structure Furnished (workerDir : Path) (worker : Place) (data : Path) (place : Place) (d : Disk) :
    Prop where
  vessel : Vessel data place d
  leads : d.Leads workerDir worker
  hasDir : d.HasDir worker
  vacant : d.find? (worker ++ [macrosName]) = none
  apart : Apart place (worker ++ [macrosName])

variable {data : Path}

/-- Once the data are unpacked, the place of the scripts is as it was. -/
theorem Furnished.unpacked (h : Furnished workerDir worker data place d)
    (hd' : Changes (Tar.Unpacks place) d d') :
    d'.WellFormed ∧ d'.Leads workerDir worker ∧ d'.HasDir worker ∧
      d'.find? (worker ++ [macrosName]) = none := by
  have hinside : ∀ other node, Tar.Unpacks place other node → place <+: other :=
    fun _ _ ha => ha.1
  have hkeeps : d.Keeps d' := by
    refine hd'.keepsAll hinside h.vessel.hasDir fun other hp hsome => ?_
    obtain ⟨names, rfl⟩ := hp
    by_contra hne
    refine hsome (h.vessel.empty names ?_)
    rintro rfl
    exact hne (List.append_nil place)
  exact ⟨hd'.wellFormed h.vessel.wellFormed, h.leads.keeps hkeeps, hd'.hasDir h.hasDir,
    (hd'.outside hinside h.apart.1).trans h.vacant⟩

/-- The new directory of scripts is empty. -/
theorem vessel_scripts (hd : d.WellFormed) (hleads : d.Leads workerDir worker)
    (hdir : d.HasDir worker) (hvacant : d.find? (worker ++ [macrosName]) = none)
    (hsound : Sound (join workerDir macrosName)) :
    Vessel (join workerDir macrosName) (worker ++ [macrosName])
      (d.put (worker ++ [macrosName]) (.dir plainMode)) := by
  have hput : Changes (fun _ _ => True) d (d.put (worker ++ [macrosName]) (.dir plainMode)) :=
    Changes.refl.step trivial (.make hdir (by decide +kernel) hvacant)
  have hmade : (d.put (worker ++ [macrosName]) (.dir plainMode)).HasDir (worker ++ [macrosName]) :=
    ⟨plainMode, find?_put_self (by simp)⟩
  have hwf := hput.wellFormed hd
  refine ⟨hwf, ?_, hmade, fun names hne => ?_, hsound⟩
  · exact (hleads.keeps (keeps_put hvacant _)).down hwf named_macrosName slash_notMem_macrosName
      hmade
  · rw [find?_put_of_ne (by simpa using hne)]
    exact hd.find?_of_prefix hvacant (List.prefix_append ..)

/-- A bundle was unpacked to two places, and nothing else was done. -/
structure Landed (bundle : Bytes) (data scripts : Place) (d d' : Disk) : Prop where
  outside : ∀ place, ¬data <+: place → ¬scripts <+: place → d'.find? place = d.find? place
  trees : ∀ members, Tar.members bundle = .ok members → Tar.Unlinked members →
    ∀ names, names ≠ [] → d'.find? (data ++ names) = Tar.Tree.ofMembers members names ∧
      d'.find? (scripts ++ names) = Tar.Tree.ofMembers members names

/-- **A bundle that is unpacked twice lands twice and nowhere else**, and one without members
would have been unpacked as well. -/
theorem spread_spec (h : Furnished workerDir worker data place d)
    (hrun : (spread bundle data (join workerDir macrosName)).run d = (.ok (), d')) :
    Landed bundle place (worker ++ [macrosName]) d d' ∧
      ∀ nothing, Tar.members nothing = .ok [] →
        (spread nothing data (join workerDir macrosName)).run d =
          (.ok (), d.put (worker ++ [macrosName]) (.dir plainMode)) := by
  obtain ⟨⟨⟩, d₁, hfirst, hrest⟩ := exists_of_run_bind hrun
  obtain ⟨⟨⟩, d₂, hmake, hsecond⟩ := exists_of_run_bind hrest
  obtain ⟨hchanges, htree⟩ := unpackBundle_spec h.vessel hfirst
  obtain ⟨hwf, hleads, hdir, hvacant⟩ := h.unpacked hchanges
  obtain ⟨rfl, hsound⟩ := makeDirs_spec hleads hvacant (run_of_run_adapt hmake)
  have hscripts := vessel_scripts hwf hleads hdir hvacant hsound
  obtain ⟨hchanges', htree'⟩ := unpackBundle_spec hscripts hsecond
  -- Outside the place of the scripts nothing has changed since the data were unpacked.
  have hsince : ∀ other, ¬worker ++ [macrosName] <+: other → d'.find? other = d₁.find? other := by
    intro other hother
    rw [hchanges'.outside (fun _ _ ha => ha.1) hother, find?_put_of_ne]
    rintro rfl
    exact hother (List.prefix_refl _)
  refine ⟨⟨fun other hdata hother => ?_, fun members hmembers hlinks names hne => ⟨?_, ?_⟩⟩, ?_⟩
  · exact (hsince other hother).trans (hchanges.outside (fun _ _ ha => ha.1) hdata)
  · rw [hsince _ (Apart.below ⟨h.apart.2, h.apart.1⟩ names)]
    exact (htree members hmembers hlinks).find?_eq names hne
  · exact (htree' members hmembers hlinks).find?_eq names hne
  · intro nothing hnothing
    have hempty := vessel_scripts h.vessel.wellFormed h.leads h.hasDir h.vacant hsound
    have hstep : (step "creating" (join workerDir macrosName)
        (makeDirs (join workerDir macrosName))).run d =
        (.ok (), d.put (worker ++ [macrosName]) (.dir plainMode)) :=
      run_adapt_of_ok (run_makeDirs_vacant h.leads h.hasDir h.vacant hsound)
    rw [spread, run_bind_of_ok (run_unpackBundle_nothing h.vessel hnothing),
      run_bind_of_ok hstep]
    exact run_unpackBundle_nothing hempty hnothing

/-! ### Before the bundle -/

section

variable {assetDir target source : Path} {names : List Name}

/-- While the worker's directory is furnished, nothing lies at the place of the scripts. -/
structure Furnishing (assetDir : Path) (d₀ : Disk) (root : Place) (d : Disk) : Prop where
  filling : Filling (.usual assetDir) d₀ root (Sources.usual assetDir).routes d
  vacant : d.find? (root ++ Sources.scriptNames) = none

theorem ensures_furnishing {action : DiskAction FileFault Unit} {E : FileFault → Disk → Prop}
    (hfill : Ensures (Filling (.usual assetDir) d₀ root (Sources.usual assetDir).routes) action
      (fun _ => Filling (.usual assetDir) d₀ root (Sources.usual assetDir).routes) E)
    (haside : Ensures (Furnishing assetDir d₀ root) action
      (fun _ d => d.find? (root ++ Sources.scriptNames) = none) (fun _ _ => True)) :
    Ensures (Furnishing assetDir d₀ root) action (fun _ => Furnishing assetDir d₀ root)
      (fun _ _ => True) :=
  ((hfill.of_pre fun _ hd => hd.filling).and haside).weaken (fun _ hd => hd)
    (fun _ _ hd => ⟨hd.1, hd.2⟩) fun _ _ _ => trivial

/-- A file is copied along a route, but not the one of the scripts. -/
theorem ensures_copyAside (h : Empty d₀ path root) (htarget : Below path target names)
    (hroute : names ∈ (Sources.usual assetDir).routes) (hne : names ≠ Sources.scriptNames) :
    Ensures (Furnishing assetDir d₀ root) (copy source target)
      (fun _ => Furnishing assetDir d₀ root) (fun _ _ => True) := by
  have hbelow := Sources.contained_usual.below names (List.mem_cons_of_mem _ hroute)
  refine ensures_furnishing (ensures_copyBelow h htarget hroute hbelow)
    (ensures_copy ?_ fun _ _ _ => trivial)
  rintro d origin octets spot hd - - hl -
  obtain ⟨hplace, -⟩ :=
    h.place_inside hd.filling.changes (hd.filling.clear names hroute) hbelow htarget hl
  have hother : root ++ Sources.scriptNames ≠ spot.place := by
    rw [hplace, Sources.walk_usual hroute]
    simpa using hne.symm
  rw [find?_put_of_ne hother, find?_put_of_ne hother]
  exact hd.vacant

/-- The path of the worker's directory leads to it. -/
theorem Furnishing.leads (hd : Furnishing assetDir d₀ root d) (h : Empty d₀ path root) :
    d.Leads (join path (.ofText (Sources.usual assetDir).workerDir)) (root ++ [ascii "ImageJ"]) ∧
      d.HasDir (root ++ [ascii "ImageJ"]) := by
  have hwalk : walk root (Sources.usual assetDir).workerRoute = root ++ [ascii "ImageJ"] := by
    rw [Sources.workerRoute_usual, walk, if_neg (by decide +kernel), walk]
  have hwf := hd.filling.changes.wellFormed h.wellFormed
  rw [← hwalk]
  exact ⟨hd.filling.leads h Sources.contained_usual,
    hasDir_walk hwf (hd.filling.changes.hasDir h.hasDir) hd.filling.dirs⟩

/-- The directory of plugins is made in the worker's directory unless it is there. -/
theorem ensures_makePlugins (h : Empty d₀ path root) :
    Ensures (Furnishing assetDir d₀ root)
      (makeDirs (join (join path (.ofText (Sources.usual assetDir).workerDir)) pluginsName))
      (fun _ => Furnishing assetDir d₀ root) (fun _ _ => True) := by
  have hcontained : (Sources.usual assetDir).Contained := Sources.contained_usual
  have htarget : ∀ {d}, Furnishing assetDir d₀ root d →
      Tar.Target root (join path (.ofText (Sources.usual assetDir).workerDir))
        (root ++ [ascii "ImageJ"]) d :=
    fun hd => ⟨(hd.leads h).1, List.prefix_append ..⟩
  refine ensures_furnishing (ensures_makeDirsBelow h hcontained named_pluginsName
    slash_notMem_pluginsName) (ensures_makeDirs ?_ ?_ (fun d hd _ => hd.vacant) ?_
      fun _ _ _ => trivial)
  · exact join_ne_nil (join_ne_nil h.leads.ne_nil (hcontained.relative _ (by simp)))
      (isAbsolute_of_notMem slash_notMem_pluginsName)
  · intro d spot hd hl _
    have hspot := (htarget hd).reaches named_pluginsName slash_notMem_pluginsName spot hl
    have hother : root ++ Sources.scriptNames ≠ spot.place := by
      rw [hspot, List.append_assoc]
      refine mt List.append_cancel_left ?_
      decide +kernel
    rw [find?_put_of_ne hother]
    exact hd.vacant
  · intro d hd
    exact (htarget hd).not_missing named_pluginsName slash_notMem_pluginsName

/-- Once the directory for the plugin's data is made, the worker's directory is furnished. -/
theorem ensures_makeData_furnished (h : Empty d₀ path root) {data : Path}
    (hdata : Below path data Sources.dataNames) :
    Ensures (Furnishing assetDir d₀ root) (makeDir data 0o700)
      (fun _ => Furnished (join path (.ofText (Sources.usual assetDir).workerDir))
        (root ++ [ascii "ImageJ"]) data (root ++ Sources.dataNames)) (fun _ _ => True) := by
  have hroute : Sources.dataNames ∈ (Sources.usual assetDir).routes := by
    rw [Sources.routes_usual]
    simp
  have hbelow := Sources.contained_usual.below _ (List.mem_cons_of_mem _ hroute)
  have hwalk : walk root Sources.dataNames = root ++ Sources.dataNames :=
    Sources.walk_usual hroute
  refine ensures_makeDir ?_ (fun _ _ => trivial) fun _ _ _ _ => trivial
  intro d spot hd hl hnone
  obtain ⟨hplace, -⟩ :=
    h.place_inside hd.filling.changes (hd.filling.clear _ hroute) hbelow hdata hl
  rw [hwalk] at hplace
  have hwf := hd.filling.changes.wellFormed h.wellFormed
  have hput : Changes (Unlinking root) d (d.put spot.place (.dir 0o700)) :=
    Changes.refl.put_vacant hwf hl hnone ⟨hplace ▸ List.prefix_append .., by simp⟩
  have hother : root ++ Sources.scriptNames ≠ spot.place := by
    rw [hplace]
    refine mt List.append_cancel_left ?_
    decide +kernel
  have hfurnishing : Furnishing assetDir d₀ root (d.put spot.place (.dir 0o700)) :=
    ⟨hd.filling.step hput, (find?_put_of_ne hother).trans hd.vacant⟩
  have hwf' := hput.wellFormed hwf
  have hmade : (d.put spot.place (.dir 0o700)).find? spot.place = some (.dir 0o700) :=
    find?_put_self (ne_nil_of_vacant hnone)
  rw [hplace] at hnone hput hfurnishing hwf' hmade ⊢
  obtain ⟨hleads, hworker⟩ := hfurnishing.leads h
  -- Down to the new directory there are directories only.
  have hdirs : ∀ pass ∈ passes root Sources.dataNames,
      (d.put (root ++ Sources.dataNames) (.dir 0o700)).HasDir pass := by
    intro pass hpass
    obtain ⟨above, -, hwithin, rfl⟩ :=
      exists_prefix_of_mem_passes (Sources.named_usual hroute) hpass
    by_cases hne : root ++ above = root ++ Sources.dataNames
    · rw [hne]
      exact ⟨_, hmade⟩
    · exact hwf'.hasDir_of_prefix hmade ((List.prefix_append_right_inj root).mpr hwithin) hne
  have hleadsData := (h.leads_of_changes hfurnishing.filling.changes).below hwf'
    (hfurnishing.filling.changes.hasDir h.hasDir) hdata hdirs
  rw [hwalk] at hleadsData
  refine ⟨⟨hwf', hleadsData, ⟨_, hmade⟩, fun names hne => ?_, sound_of_locate hl⟩, hleads,
    hworker, ?_, ?_⟩
  · rw [find?_put_of_ne (by simpa using hne)]
    exact hwf.find?_of_prefix hnone (List.prefix_append ..)
  · rw [List.append_assoc]
    exact hfurnishing.vacant
  · rw [List.append_assoc, Apart, List.prefix_append_right_inj, List.prefix_append_right_inj]
    decide +kernel

/-- Whatever is found under the archive's name once the new directory is there leaves room for the
scripts. -/
def Roomy (assetDir temporary : Path) (d : Disk) : Prop :=
  ∀ place root d' origin octets, (makeFreshDir temporary stem).run d = (.ok (place, root), d') →
    d'.status true (Sources.usual assetDir).archivePath = .ok (origin, .file octets) →
      Zip.LeavesRoom octets

/-- **The worker's directory is furnished before the bundle is unpacked.** -/
theorem ensures_furnish (h : Empty d₀ path root)
    (hroom : ∀ origin octets, d₀.status true (Sources.usual assetDir).archivePath =
      .ok (origin, .file octets) → Zip.LeavesRoom octets) :
    Ensures (· = d₀) (furnish (.usual assetDir) path)
      (fun workerDir => Furnished workerDir (root ++ [ascii "ImageJ"])
        (join (join workerDir pluginsName) (.ofText (Sources.usual assetDir).dataDir))
        (root ++ Sources.dataNames)) (fun _ _ => True) := by
  have hcontained : (Sources.usual assetDir).Contained := Sources.contained_usual
  have hworker : Ensures (· = d₀) (unpackWorker (.usual assetDir) path)
      (fun workerDir d => workerDir = join path (.ofText (Sources.usual assetDir).workerDir) ∧
        Furnishing assetDir d₀ root d) (fun _ _ => True) := by
    refine (ensures_unpackWorker h hcontained fun origin octets hstatus route _ place _ =>
      (hroom origin octets hstatus).unlinked place).weaken (fun _ hd => hd) ?_ fun _ _ _ => trivial
    rintro workerDir d ⟨hdir, hfill, origin, octets, hstatus, hspared⟩
    refine ⟨hdir, hfill, ?_⟩
    rw [hspared _ ?_ ?_]
    · exact h.empty _ (List.prefix_append ..) (by simp [Sources.scriptNames])
    · have harchive : steps (.ofText (Sources.usual assetDir).workerArchive) =
          [ascii "ImageJ.zip"] := by
        change steps (.ofText "ImageJ.zip") = _
        decide +kernel
      rw [harchive, walk, if_neg (by decide +kernel), walk]
      refine mt List.append_cancel_left ?_
      decide +kernel
    · rintro ⟨names, hholds, hwithin⟩
      exact (hroom origin octets hstatus).vacant names hholds
        ((List.prefix_append_right_inj root).mp hwithin)
  -- The paths that are written to, and the names by which they go down.
  have hbase : Below path (join path (.ofText (Sources.usual assetDir).workerDir))
      (Sources.usual assetDir).workerRoute :=
    .one (hcontained.relative _ (by simp))
  have hplugins := hbase.more (isAbsolute_of_notMem slash_notMem_pluginsName)
  have hloader := hbase.more (hcontained.relative (Sources.usual assetDir).loader (by simp))
  have hplugin :=
    hplugins.more (hcontained.relative (Sources.usual assetDir).filterPlugin (by simp))
  have hdata := hplugins.more (hcontained.relative (Sources.usual assetDir).dataDir (by simp))
  have hroutes : (Sources.usual assetDir).routes = _ := Sources.routes_usual
  simp only [Sources.routes, List.cons.injEq, and_true] at hroutes
  obtain ⟨hloaderRoute, hpluginRoute, hdataRoute, -⟩ := hroutes
  rw [hloaderRoute] at hloader
  rw [hpluginRoute] at hplugin
  rw [hdataRoute] at hdata
  refine ensures_bind_fact hworker ?_
  rintro workerDir rfl
  refine ensures_bind (ensures_adapt (ensures_copyAside h hloader ?_ (by decide +kernel)))
    fun _ => ?_
  · rw [Sources.routes_usual]
    simp
  refine ensures_bind (ensures_adapt (ensures_makePlugins h)) fun _ => ?_
  refine ensures_bind (ensures_adapt (ensures_copyAside h hplugin ?_ (by decide +kernel)))
    fun _ => ?_
  · rw [Sources.routes_usual]
    simp
  refine ensures_bind (ensures_adapt (ensures_makeData_furnished h hdata)) fun _ => ?_
  exact ensures_pure fun _ hd => hd

/-- **The bundle lands twice and nowhere else.** Outside the directory for the plugin's data and
that of the scripts the disk is as it would be after setting the workspace up with nothing in the
bundle, which succeeds as well. Without links in the bundle both hold the same tree. -/
theorem bundle_lands_twice {w : Workspace} (hd : d.WellFormed)
    (hroom : Roomy assetDir temporary d)
    (hrun : (bootstrap temporary (.usual assetDir) bundle).run d = (.ok w, d')) :
    (∀ nothing, Tar.members nothing = .ok [] →
      ∃ d'', (bootstrap temporary (.usual assetDir) nothing).run d = (.ok w, d'') ∧
        ∀ place, ¬w.dataPlace <+: place → ¬w.scriptPlace <+: place →
          d'.find? place = d''.find? place) ∧
    ∀ members, Tar.members bundle = .ok members → Tar.Unlinked members →
      ∀ names, names ≠ [] →
        d'.find? (w.dataPlace ++ names) = d'.find? (w.scriptPlace ++ names) := by
  obtain ⟨d₀, hfresh, hpopulate⟩ := run_bootstrap_iff.mp hrun
  obtain ⟨d₁, hfurnish, hspread⟩ := run_populate_iff.mp hpopulate
  have hnew := ((ensures_fresh d rfl).1 _ d₀ hfresh).1
  have hfurnished := (ensures_furnish (.of_fresh hnew hd)
    (fun origin octets => hroom _ _ d₀ origin octets hfresh) d₀ rfl).1 _ d₁ hfurnish
  obtain ⟨hlanded, hnothing⟩ := spread_spec hfurnished hspread
  have hscripts : w.place ++ [ascii "ImageJ"] ++ [macrosName] = w.scriptPlace :=
    List.append_assoc ..
  rw [hscripts] at hlanded hnothing
  refine ⟨fun nothing hmembers => ⟨_, run_bootstrap_iff.mpr ⟨d₀, hfresh,
    run_populate_iff.mpr ⟨d₁, hfurnish, hnothing nothing hmembers⟩⟩, ?_⟩, ?_⟩
  · intro place hdata hscript
    rw [hlanded.outside place hdata hscript, find?_put_of_ne]
    rintro rfl
    exact hscript (List.prefix_refl _)
  · intro members hmembers hlinks names hne
    obtain ⟨hdata, hscript⟩ := hlanded.trees members hmembers hlinks names hne
    exact hdata.trans hscript.symm

end

/-! ### A small bundle -/

/-- A header of the oldest kind. -/
def smallHeader (path mode size checksum : String) (kind : Char) : Bytes :=
  let field (text : String) (width : Nat) := ascii text ++ List.replicate (width - text.length) 0
  field path 100 ++ field mode 8 ++ field "0000000" 8 ++ field "0000000" 8 ++ field size 12 ++
    field "00000000000" 12 ++ field checksum 7 ++ ascii " " ++ [UInt8.ofNat kind.toNat] ++
    List.replicate 355 0

/-- A file beside the destination, one with an absolute path, and the directory of the latter. -/
def smallBundle : Bytes :=
  smallHeader "../a" "0000644" "00000000000" "005072" '0' ++
    smallHeader "/d/a" "0000644" "00000000001" "005162" '0' ++ 1 :: List.replicate 511 0 ++
    smallHeader "d" "0000755" "00000000000" "004672" '5'

theorem leavesRoom_smallArchive : Zip.LeavesRoom smallArchive where
  unlinked := not_links_smallArchive
  vacant := by
    rintro names ⟨members, hmembers, m, hm, hnames⟩
    have haside : ∀ members ∈ (Zip.members smallArchive).toOption, ∀ m ∈ members,
        ∀ names ∈ (Zip.memberNames m).toOption, ¬Sources.scriptNames <+: names := by
      decide +kernel
    exact haside members (by rw [hmembers]; rfl) m hm names (by rw [hnames]; rfl)

theorem roomy_smallDisk : Roomy (ascii "/assets") (ascii "/tmp") smallDisk := by
  intro place root d' origin octets hrun hstatus
  have hfile : ∀ found ∈ (((makeFreshDir (ascii "/tmp") stem).run smallDisk).2.status true
      (Sources.usual (ascii "/assets")).archivePath).toOption, found.2 = .file smallArchive := by
    decide +kernel
  have hoctets := hfile (origin, .file octets) (by rw [hrun, hstatus]; rfl)
  obtain rfl : octets = smallArchive := Node.file.inj hoctets
  exact leavesRoom_smallArchive

/-- The small bundle lands twice on the small disk, but for what would lie beside it. -/
theorem smallBundle_lands_twice :
    (smallDisk.WellFormed ∧ Roomy (ascii "/assets") (ascii "/tmp") smallDisk) ∧
    ∃ w d' d'',
      (bootstrap (ascii "/tmp") (.usual (ascii "/assets")) smallBundle).run smallDisk =
        (.ok w, d') ∧
      (bootstrap (ascii "/tmp") (.usual (ascii "/assets")) []).run smallDisk = (.ok w, d'') ∧
      (∀ place, ¬w.dataPlace <+: place → ¬w.scriptPlace <+: place →
        d'.find? place = d''.find? place) ∧
      (∀ names, names ≠ [] →
        d'.find? (w.dataPlace ++ names) = d'.find? (w.scriptPlace ++ names)) ∧
      d'.find? (w.scriptPlace ++ [ascii "d", ascii "a"]) = some (.file [1]) := by
  have hwf : smallDisk.WellFormed := wellFormed_of_entries (by decide +kernel) (by decide +kernel)
  have hlinks : ∀ members ∈ (Tar.members smallBundle).toOption,
      ∀ m ∈ members, m.kind ≠ .link ∧ m.kind ≠ .hardLink := by
    decide +kernel
  have hread : (Tar.members smallBundle).toOption.isSome := by decide +kernel
  have hfile : ∃ w ∈ ((bootstrap (ascii "/tmp") (.usual (ascii "/assets")) smallBundle).run
      smallDisk).1.toOption,
      ((bootstrap (ascii "/tmp") (.usual (ascii "/assets")) smallBundle).run smallDisk).2.find?
        (w.scriptPlace ++ [ascii "d", ascii "a"]) = some (.file [1]) := by
    decide +kernel
  refine ⟨⟨hwf, roomy_smallDisk⟩, ?_⟩
  obtain ⟨w, hw, hfound⟩ := hfile
  rcases hrun : (bootstrap (ascii "/tmp") (.usual (ascii "/assets")) smallBundle).run smallDisk
    with ⟨e | w', d'⟩
  · rw [hrun] at hw
    cases hw
  · rw [hrun] at hw hfound
    cases hw
    obtain ⟨houtside, htrees⟩ := bundle_lands_twice hwf roomy_smallDisk hrun
    obtain ⟨d'', hnothing, hsame⟩ := houtside [] rfl
    cases hmembers : Tar.members smallBundle with
    | error e =>
      rw [hmembers] at hread
      cases hread
    | ok members =>
      have hplain : Tar.Unlinked members := hlinks members (by rw [hmembers]; rfl)
      exact ⟨w, d', d'', rfl, hnothing, hsame, htrees members hmembers hplain, hfound⟩

end Workspace

end ImageScoring
