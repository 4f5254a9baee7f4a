import ImageScoring.Proofs.Workspace.Filling

/-!
# Isolated workspaces

Setting a workspace up changes nothing outside it, and removing it leaves the disk as it was, if the
names of its sources stay in it (`bootstrap_isolated`). They are joined unchecked, though: a name
that leads out of the workspace leaves behind what was made there (`bootstrap_escapes`), and an
absolute name of the worker's archive costs the archive (`archive_emptied_of_absolute`).
-/

namespace ImageScoring

open ImageScoring.Path

namespace Workspace

open Disk DiskAction

variable {sources : Sources} {d₀ d d' : Disk} {path : Path}

/-! ### Setting up -/

/-- Whatever is found under the archive's name once the new directory is there has no link on the
routes. -/
def Untangled (sources : Sources) (temporary : Path) (d : Disk) : Prop :=
  ∀ place root d' origin octets, (makeFreshDir temporary stem).run d = (.ok (place, root), d') →
    d'.status true sources.archivePath = .ok (origin, .file octets) → sources.Unlinked octets

/-- A workspace was set up and nothing else was done, so removing it undoes everything. -/
structure Isolated (d : Disk) (w : Workspace) (d' : Disk) : Prop where
  vacant : d.find? w.place = none
  changes : Changes (Inside w.place) d d'
  outside : ∀ place, ¬w.place <+: place → d'.find? place = d.find? place
  kept : ∀ place node, d.find? place = some node → d'.find? place = some node
  removed : w.remove d' = d

theorem Isolated.of_changes {w : Workspace} (hd : d.WellFormed) (hvacant : d.find? w.place = none)
    (h : Changes (Inside w.place) d d') : Isolated d w d' := by
  have houtside : ∀ place, ¬w.place <+: place → d'.find? place = d.find? place :=
    fun place hplace => h.outside (fun _ _ ha => ha) hplace
  refine ⟨hvacant, h, houtside, fun place node hfind => ?_,
    h.eraseTree hd (fun _ _ ha => ha) hvacant⟩
  have hplace : ¬w.place <+: place := by
    intro hwithin
    rw [hd.find?_of_prefix hvacant hwithin] at hfind
    cases hfind
  rw [houtside place hplace, hfind]

/-- The new directory of a workspace, and how it was made. -/
theorem ensures_fresh {temporary : Path} :
    Ensures (· = d) (makeFreshDir temporary stem)
      (fun found d' => Fresh d temporary found.1 found.2 d' ∧
        (makeFreshDir temporary stem).run d = (.ok found, d'))
      (fun e d' => d' = d ∧ (makeFreshDir temporary stem).run d = (.error e, d')) := by
  rintro d' rfl
  obtain ⟨hok, herror⟩ := ensures_makeFreshDir (by decide +kernel : slash ∉ stem) d' rfl
  exact ⟨fun found d'' hrun => ⟨hok found d'' hrun, hrun⟩,
    fun e d'' hrun => ⟨herror e d'' hrun, hrun⟩⟩

/-- What is done when filling a new directory has failed: its tree is erased. -/
theorem ensures_undo {place : Place} {P : Disk → Prop} {Q : Path → Disk → Prop}
    {E : Error → Disk → Prop} {e : Error} (h : ∀ d, P d → E e (d.eraseTree place)) :
    Ensures P (do modify (·.eraseTree place); throw e : DiskAction Error Path) Q E := by
  have hmodify : Ensures P (modify (·.eraseTree place) : DiskAction Error PUnit)
      (fun _ d' => E e d') E :=
    ensures_modify h
  exact ensures_bind hmodify fun _ => ensures_throw fun _ he => he

theorem ensures_bootstrap_isolated {temporary : Path} (hd : d.WellFormed)
    (hcontained : sources.Contained) (hlinks : Untangled sources temporary d) (bundle : Bytes) :
    Ensures (· = d) (bootstrap temporary sources bundle) (fun w d' => Isolated d w d')
      (fun _ d' => d' = d) := by
  have hfresh : Ensures (· = d) (makeFreshDir temporary stem)
      (fun found d' => Fresh d temporary found.1 found.2 d' ∧
        (makeFreshDir temporary stem).run d = (.ok found, d')) (fun _ d' => d' = d) :=
    ensures_fresh.weaken (fun _ h => h) (fun _ _ h => h) fun _ _ h => h.1
  refine ensures_bind (ensures_adapt hfresh) ?_
  rintro ⟨place, root⟩ d₀ ⟨hnew, hrun⟩
  have hchanges := hnew.changes hd
  have hpopulate := ensures_populate (.of_fresh hnew hd) hcontained
    (fun origin octets => hlinks place root d₀ origin octets hrun) bundle
  have hundo : ∀ e : Error, Ensures (Changes (Inside place) d₀)
      (do modify (·.eraseTree place); throw e : DiskAction Error Path)
      (fun _ => Changes (Inside place) d₀) (fun _ d' => d' = d) := fun e =>
    ensures_undo fun d' hd' => (hchanges.trans hd').eraseTree hd (fun _ _ ha => ha) hnew.vacant
  refine ensures_bind (ensures_tryCatch hpopulate hundo) (fun workerDir => ?_) d₀ rfl
  exact ensures_pure fun d' hd' => .of_changes hd hnew.vacant (hchanges.trans hd')

/-- **Setting a workspace up changes nothing outside it**, if the names of its sources stay in it:
what fails leaves the disk as it was, and so does removing the workspace. -/
theorem bootstrap_isolated {temporary : Path} (hd : d.WellFormed) (hcontained : sources.Contained)
    (hlinks : Untangled sources temporary d) (bundle : Bytes) :
    (∀ w d', (bootstrap temporary sources bundle).run d = (.ok w, d') → Isolated d w d') ∧
    ∀ e d', (bootstrap temporary sources bundle).run d = (.error e, d') → d' = d :=
  ensures_bootstrap_isolated hd hcontained hlinks bundle d rfl

/-! ### A small disk -/

/-- An archive of one member, the directory `ImageJ`. -/
def smallArchive : Bytes :=
  [80, 75, 3, 4, 20, 0, 0, 0, 0, 0, 0, 0, 33, 0, 0, 0, 0, 0, 0, 0, 0, 0, 0, 0, 0, 0, 7, 0, 0, 0] ++
    ascii "ImageJ/" ++
    [80, 75, 1, 2, 20, 3, 20, 0, 0, 0, 0, 0, 0, 0, 33, 0, 0, 0, 0, 0, 0, 0, 0, 0, 0, 0, 0, 0, 7, 0,
      0, 0, 0, 0, 0, 0, 0, 0, 16, 0, 237, 65, 0, 0, 0, 0] ++
    ascii "ImageJ/" ++
    [80, 75, 5, 6, 0, 0, 0, 0, 1, 0, 1, 0, 53, 0, 0, 0, 37, 0, 0, 0, 0, 0]

/-- A directory for temporary files, and one with the files of a worker. -/
def smallDisk : Disk where
  entries := [([ascii "tmp"], .dir 0o755), ([ascii "assets"], .dir 0o755),
    ([ascii "assets", ascii "ImageJ.zip"], .file smallArchive),
    ([ascii "assets", ascii "ijloader.jar"], .file []),
    ([ascii "assets", ascii "diamond_filter.jar"], .file [])]

/-- The files of the worker, under their usual names. -/
def smallSources : Sources where
  assetDir := ascii "/assets"

theorem not_links_smallArchive (names : List Name) : ¬Zip.Links smallArchive names := by
  rintro ⟨members, hmembers, m, hm, hlink, -⟩
  have hno : ∀ members ∈ (Zip.members smallArchive).toOption, ∀ m ∈ members, m.isLink = false := by
    decide +kernel
  rw [hno members (by rw [hmembers]; rfl) m hm] at hlink
  cases hlink

theorem untangled_smallSources : Untangled smallSources (ascii "/tmp") smallDisk := by
  intro place root d' origin octets hrun hstatus route _ pass _
  have hfile : ∀ found ∈ (((makeFreshDir (ascii "/tmp") stem).run smallDisk).2.status true
      smallSources.archivePath).toOption, found.2 = .file smallArchive := by
    decide +kernel
  have hoctets := hfile (origin, .file octets) (by rw [hrun, hstatus]; rfl)
  obtain rfl : octets = smallArchive := Node.file.inj hoctets
  exact not_links_smallArchive pass

theorem smallDisk_isolated :
    (smallDisk.WellFormed ∧ smallSources.Contained ∧
      Untangled smallSources (ascii "/tmp") smallDisk) ∧
    ∃ w d', (bootstrap (ascii "/tmp") smallSources []).run smallDisk = (.ok w, d') ∧
      Isolated smallDisk w d' := by
  have hwf : smallDisk.WellFormed := wellFormed_of_entries (by decide +kernel) (by decide +kernel)
  have hcontained : smallSources.Contained := ⟨by decide +kernel, by decide +kernel⟩
  have hsome : ((bootstrap (ascii "/tmp") smallSources []).run smallDisk).1.toOption.isSome := by
    decide +kernel
  obtain ⟨hisolated, -⟩ := bootstrap_isolated hwf hcontained untangled_smallSources []
  refine ⟨⟨hwf, hcontained, untangled_smallSources⟩, ?_⟩
  rcases hrun : (bootstrap (ascii "/tmp") smallSources []).run smallDisk with ⟨e | w, d'⟩
  · rw [hrun] at hsome
    cases hsome
  · exact ⟨w, d', rfl, hisolated w d' hrun⟩

/-! ### Names that lead elsewhere -/

/-- **A name that leads out of the workspace leaves what was made there**: the directory for the
plugin's data lies beside the workspace and is still there when that is removed. -/
theorem bootstrap_escapes :
    ∃ w d', (bootstrap (ascii "/tmp") { smallSources with dataDir := "../../../imagejfind_x" }
        []).run smallDisk = (.ok w, d') ∧
      smallDisk.find? [ascii "tmp", ascii "imagejfind_x"] = none ∧
      ¬w.place <+: [ascii "tmp", ascii "imagejfind_x"] ∧
      (w.remove d').find? [ascii "tmp", ascii "imagejfind_x"] = some (.dir 0o700) := by
  have hsome : ((bootstrap (ascii "/tmp") { smallSources with dataDir := "../../../imagejfind_x" }
      []).run smallDisk).1.toOption.isSome := by
    decide +kernel
  have hleft : ∀ w ∈ ((bootstrap (ascii "/tmp")
      { smallSources with dataDir := "../../../imagejfind_x" } []).run smallDisk).1.toOption,
      ¬w.place <+: [ascii "tmp", ascii "imagejfind_x"] ∧
      (w.remove ((bootstrap (ascii "/tmp") { smallSources with dataDir := "../../../imagejfind_x" }
        []).run smallDisk).2).find? [ascii "tmp", ascii "imagejfind_x"] = some (.dir 0o700) := by
    decide +kernel
  rcases hrun : (bootstrap (ascii "/tmp") { smallSources with dataDir := "../../../imagejfind_x" }
      []).run smallDisk with ⟨e | w, d'⟩
  · rw [hrun] at hsome
    cases hsome
  · rw [hrun] at hleft
    exact ⟨w, d', rfl, by decide +kernel, hleft w rfl⟩

/-- A file that is copied to itself is emptied. -/
theorem run_copy_self {origin : Place} {octets : Bytes}
    (h : d.status true path = .ok (origin, .file octets)) :
    (copy path path).run d = (.ok (), (d.put origin (.file [])).put origin (.file [])) := by
  obtain ⟨hl, hfind⟩ := status_eq_ok h
  have hne := ne_nil_of_file hfind
  have hcreate : (create path).run d = (.ok origin, d.put origin (.file [])) := by
    have hlook : (look (·.locate true path) : DiskAction FileFault Spot).run d =
        (.ok (.reached origin), d) := by
      rw [run_look, hl]
    rw [create, run_bind_of_ok hlook]
    dsimp only
    rw [run_bind_of_ok run_get, hfind]
    rfl
  have hstatus : (look (·.status true path) : DiskAction FileFault (Place × Node)).run d =
      (.ok (origin, .file octets), d) := by
    rw [run_look, h]
  rw [copy, run_bind_of_ok hstatus]
  dsimp only
  rw [run_bind_of_ok hcreate, run_bind_of_ok run_get, content, find?_put_self hne]
  rfl

/-- What is unpacked from an archive that was emptied is nothing. -/
theorem ensures_populate_emptied {origin : Place} {octets : Bytes}
    (habsolute : isAbsolute (.ofText sources.workerArchive) = true)
    (hstatus : d₀.status true (.ofText sources.workerArchive) = .ok (origin, .file octets))
    (bundle : Bytes) :
    Ensures (· = d₀) (populate sources bundle path) (fun _ _ => False)
      (fun _ d' => d'.find? origin = some (.file [])) := by
  obtain ⟨hl, hfind⟩ := status_eq_ok hstatus
  have hne := ne_nil_of_file hfind
  have hjoin : ∀ base, join base (.ofText sources.workerArchive) = .ofText sources.workerArchive :=
    fun base => by rw [join, if_pos habsolute]
  have hsource : sources.archivePath = .ofText sources.workerArchive := hjoin sources.assetDir
  have hcopy : Ensures (· = d₀)
      (copy sources.archivePath (join path (.ofText sources.workerArchive)))
      (fun _ d' =>
        d'.find? origin = some (.file []) ∧ d'.Leads (.ofText sources.workerArchive) origin)
      (fun _ d' => d'.find? origin = some (.file [])) := by
    rintro d' rfl
    rw [hsource, hjoin, run_copy_self hstatus]
    refine ⟨?_, by rintro e d'' ⟨⟩⟩
    rintro _ d'' ⟨⟩
    refine ⟨find?_put_self hne, ?_⟩
    have honce : d'.Keeps (d'.put origin (.file [])) := keeps_put_file hfind
    exact ((leads_of_locate hl).keeps honce).keeps (keeps_put_file (find?_put_self hne))
  have hopen : Ensures
      (fun d' =>
        d'.find? origin = some (.file []) ∧ d'.Leads (.ofText sources.workerArchive) origin)
      (look (·.canonical (join path (.ofText sources.workerArchive))))
      (fun archive d' => d'.find? origin = some (.file []) ∧ archive = origin)
      (fun (_ : FileFault) d' => d'.find? origin = some (.file [])) := by
    refine (ensures_canonical fun d' e hd => hd.1).to_post ?_
    rintro archive d' ⟨⟨hempty, hleads⟩, hl', -⟩
    rw [hjoin] at hl'
    have heq := (resolve_of_locate hl').2.symm.trans hleads.reached
    cases heq
    exact ⟨hempty, rfl⟩
  have hextract : ∀ archive, Ensures
      (fun d' => d'.find? origin = some (.file []) ∧ archive = origin) (Zip.extract archive path)
      (fun _ _ => False) (fun _ d' => d'.find? origin = some (.file [])) := by
    intro archive
    have hmembers : Ensures (fun d' => d'.find? origin = some (.file []) ∧ archive = origin)
        (look fun d' => Zip.members (d'.content archive)) (fun _ _ => False)
        (fun _ d' => d'.find? origin = some (.file [])) := by
      refine ensures_look ?_ fun d' e hd _ => hd.1
      rintro d' members ⟨hempty, rfl⟩ hread
      rw [content, hempty] at hread
      cases hread
    exact ensures_bind hmembers fun _ d' hno => hno.elim
  have hworker : Ensures (· = d₀) (unpackWorker sources path) (fun _ _ => False)
      (fun _ d' => d'.find? origin = some (.file [])) := by
    refine ensures_bind (ensures_adapt hcopy) fun _ => ?_
    refine ensures_bind (ensures_adapt hopen) fun archive => ?_
    exact ensures_bind (ensures_adapt (hextract archive)) fun _ d' hno => hno.elim
  exact ensures_bind hworker fun _ d' hno => hno.elim

/-- **An absolute name of the worker's archive costs the archive**: its copy goes by the same path,
so the archive is emptied, and then it is no archive any more. -/
theorem archive_emptied_of_absolute {temporary : Path} (hd : d.WellFormed)
    (habsolute : isAbsolute (.ofText sources.workerArchive) = true) {place origin : Place}
    {octets : Bytes} (hrun : (makeFreshDir temporary stem).run d = (.ok (place, path), d₀))
    (hstatus : d₀.status true (.ofText sources.workerArchive) = .ok (origin, .file octets))
    (bundle : Bytes) :
    ∃ e d', (bootstrap temporary sources bundle).run d = (.error e, d') ∧
      d'.find? origin = some (.file []) := by
  obtain ⟨-, hfind⟩ := status_eq_ok hstatus
  have hfresh := (ensures_makeFreshDir (by decide +kernel) d rfl).1 (place, path) d₀ hrun
  have houtside : place.isPrefixOf origin = false := by
    rw [← Bool.not_eq_true, List.isPrefixOf_iff_prefix]
    intro hwithin
    obtain ⟨mode, hdir⟩ := (Empty.of_fresh hfresh hd).dir_of_find? hwithin hfind
    cases hdir
  have hundo : ∀ e : Error, Ensures (fun d' => d'.find? origin = some (.file []))
      (do modify (·.eraseTree place); throw e : DiskAction Error Path) (fun _ _ => False)
      (fun _ d' => d'.find? origin = some (.file [])) := fun e =>
    ensures_undo fun d' hempty => (find?_eraseTree_of_outside houtside).trans hempty
  have hmade : Ensures (· = d) (makeFreshDir temporary stem)
      (fun found d' => found = (place, path) ∧ d' = d₀)
      (fun _ d' => d'.find? origin = some (.file [])) := by
    rintro d' rfl
    rw [hrun]
    refine ⟨?_, by rintro e d'' ⟨⟩⟩
    rintro found d'' ⟨⟩
    exact ⟨rfl, rfl⟩
  have hbootstrap : Ensures (· = d) (bootstrap temporary sources bundle) (fun _ _ => False)
      (fun _ d' => d'.find? origin = some (.file [])) := by
    refine ensures_bind (ensures_adapt hmade) ?_
    rintro found d' ⟨rfl, rfl⟩
    have hpopulate : Ensures (· = d') (populate sources bundle path) (fun _ _ => False)
        (fun _ d' => d'.find? origin = some (.file [])) :=
      ensures_populate_emptied habsolute hstatus bundle
    exact ensures_bind (ensures_tryCatch hpopulate hundo) (fun _ d' hno => hno.elim) d' rfl
  obtain ⟨hok, herror⟩ := hbootstrap d rfl
  rcases hresult : (bootstrap temporary sources bundle).run d with ⟨e | w, d'⟩
  · exact ⟨e, d', rfl, herror e d' hresult⟩
  · exact (hok w d' hresult).elim

/-- So it is on the small disk. -/
example : ((bootstrap (ascii "/tmp") { smallSources with workerArchive := "/assets/ImageJ.zip" }
    []).run smallDisk).2.find? [ascii "assets", ascii "ImageJ.zip"] = some (.file []) := by
  decide +kernel

end Workspace

end ImageScoring
