import ImageScoring.Proofs.Archive.Extraction
import ImageScoring.Proofs.Archive.Unpacking
import ImageScoring.Proofs.Files.Fresh
import ImageScoring.Workspace

/-!
# Filling workspaces

The names that a workspace is made of are joined to its path as they are. If they stay inside it,
and no link of the worker's archive lies on their way, then filling it changes nothing outside
(`ensures_populate`).
-/

namespace ImageScoring

open ImageScoring.Path

namespace Sources

/-! ### Names that stay in the workspace -/

/-- The names from the workspace down to the directory that the worker runs in. -/
def workerRoute (s : Sources) : List Name :=
  steps (.ofText s.workerDir)

/-- The names from the workspace down to what is made behind the worker's archive. -/
def routes (s : Sources) : List (List Name) :=
  [s.workerRoute ++ steps (.ofText s.loader),
    s.workerRoute ++ steps Workspace.pluginsName ++ steps (.ofText s.filterPlugin),
    s.workerRoute ++ steps Workspace.pluginsName ++ steps (.ofText s.dataDir),
    s.workerRoute ++ steps Workspace.macrosName]

/-- All names are relative and none leads out of the workspace. -/
structure Contained (s : Sources) : Prop where
  relative : ∀ name ∈ [s.workerArchive, s.workerDir, s.loader, s.filterPlugin, s.dataDir],
    isAbsolute (.ofText name) = false
  below : ∀ route ∈ steps (.ofText s.workerArchive) :: s.routes, staysBelow 0 route = true

/-- No link of a worker's archive with these octets is unpacked to a place on the way. -/
def Unlinked (s : Sources) (octets : Bytes) : Prop :=
  ∀ route ∈ s.routes, ∀ place ∈ passes [] route, ¬Zip.Links octets place

end Sources

namespace Workspace

open Disk DiskAction

/-! ### Filling a new directory -/

/-- A path leads to an empty directory. -/
structure Empty (d : Disk) (path : Path) (root : Place) : Prop where
  wellFormed : d.WellFormed
  hasDir : d.HasDir root
  leads : d.Leads path root
  empty : ∀ place, root <+: place → place ≠ root → d.find? place = none

theorem Empty.of_fresh {d d' : Disk} {parent path : Path} {root : Place}
    (h : Fresh d parent root path d') (hd : d.WellFormed) : Empty d' path root :=
  ⟨h.wellFormed hd, h.hasDir, h.leads hd, fun _ hp hne => h.empty hd hp hne⟩

/-- Anything may change inside. -/
abbrev Inside (root place : Place) (_ : Option Node) : Prop :=
  root <+: place

/-- Anything but links may be put inside. -/
def Unlinking (root place : Place) (node : Option Node) : Prop :=
  root <+: place ∧ ∀ target, node ≠ some (.link target)

variable {sources : Sources} {d₀ d d' : Disk} {path : Path} {root : Place} {names : List Name}
  {routes : List (List Name)}

/-- What holds while an empty directory is filled: only what is inside has changed, the directories
down to the worker's are there, and on the routes that are still to be taken no link is met. -/
structure Filling (sources : Sources) (d₀ : Disk) (root : Place) (routes : List (List Name))
    (d : Disk) : Prop where
  changes : Changes (Inside root) d₀ d
  dirs : ∀ pass ∈ passes root sources.workerRoute, d.HasDir pass
  clear : ∀ route ∈ routes, d.Clear root route

theorem Filling.step (h : Filling sources d₀ root routes d)
    (hc : Changes (Unlinking root) d d') : Filling sources d₀ root routes d' where
  changes := h.changes.trans (hc.mono fun _ _ ha => ha.1)
  dirs pass hpass := hc.hasDir (h.dirs pass hpass)
  clear route hroute pass hpass target :=
    hc.not_link (fun target ha => ha.2 target rfl) (h.clear route hroute pass hpass) target

/-- Nothing but a directory is found inside. -/
theorem Empty.dir_of_find? (h : Empty d path root) {place : Place} {node : Node}
    (hinside : root <+: place) (hfind : d.find? place = some node) : ∃ mode, node = .dir mode := by
  by_cases hne : place = root
  · obtain ⟨mode, hdir⟩ := h.hasDir
    rw [hne, hdir] at hfind
    exact ⟨mode, (Option.some.inj hfind).symm⟩
  · rw [h.empty place hinside hne] at hfind
    cases hfind

/-- The path of the new directory goes on leading there. -/
theorem Empty.leads_of_changes (h : Empty d₀ path root) (hc : Changes (Inside root) d₀ d) :
    d.Leads path root := by
  refine h.leads.keeps (hc.keepsAll (fun _ _ ha => ha) h.hasDir fun place hp hne => ?_)
  by_contra hplace
  exact hne (h.empty place hp hplace)

/-- A path below that stays inside and meets no link leads inside. -/
theorem Empty.place_inside (h : Empty d₀ path root) (hc : Changes (Inside root) d₀ d)
    (hclear : d.Clear root names) (hbelow : staysBelow 0 names = true) {follow : Bool}
    {target : Path} (htarget : Below path target names) {spot : Spot}
    (hl : d.locate follow target = .ok spot) :
    spot.place = walk root names ∧ root <+: spot.place := by
  have hplace := (h.leads_of_changes hc).place_below htarget hclear hl
  exact ⟨hplace, hplace ▸ prefix_walk hbelow root⟩

/-! ### The worker's archive -/

/-- Where no links are put, none is met. -/
theorem Empty.clear (h : Empty d₀ path root) (hc : Changes (Unlinking root) d₀ d)
    (hbelow : staysBelow 0 names = true) : d.Clear root names := by
  intro pass hpass target
  obtain ⟨rel, -, rfl⟩ := exists_of_mem_passes hbelow hpass
  refine hc.not_link (fun target ha => ha.2 target rfl) (fun target hlink => ?_) target
  obtain ⟨mode, hdir⟩ := h.dir_of_find? (List.prefix_append ..) hlink
  cases hdir

/-- The archive has been copied as it is, and nothing else was done. -/
structure Copied (d₀ : Disk) (source : Path) (root place : Place) (d : Disk) : Prop where
  changes : Changes (Unlinking root) d₀ d
  source : ∃ origin, d₀.status true source = .ok (origin, .file (d.content place))
  elsewhere : ∀ other, other ≠ place → d.find? other = d₀.find? other

/-- The archive is copied as it is: it does not lie in the empty directory that it is copied to. -/
theorem ensures_copyArchive (h : Empty d₀ path root) {source archive : Path}
    (hrel : isAbsolute archive = false) (hbelow : staysBelow 0 (steps archive) = true) :
    Ensures (· = d₀) (copy source (join path archive))
      (fun _ => Copied d₀ source root (walk root (steps archive)))
      (fun _ => Changes (Inside root) d₀) := by
  refine ensures_copy ?_ ?_
  swap
  · rintro d e rfl
    exact .refl
  rintro d origin octets spot rfl hsource hfind hl hno
  have hclear := h.clear .refl hbelow
  obtain ⟨hplace, hinside⟩ := h.place_inside .refl hclear hbelow (.one hrel) hl
  have hput : Changes (Unlinking root) d (d.put spot.place (.file [])) :=
    Changes.refl.put_file h.wellFormed hl hno ⟨hinside, by simp⟩
  have hne := ne_nil_of_not_hasDir hno
  have horigin : origin ≠ spot.place := by
    rintro rfl
    obtain ⟨mode, hdir⟩ := h.dir_of_find? hinside hfind
    cases hdir
  have hcontent : (d.put spot.place (.file [])).content origin = octets := by
    rw [content, find?_put_of_ne horigin, hfind]
  rw [← hplace]
  refine ⟨hput.put_content (find?_put_self hne) ⟨hinside, by simp⟩, ⟨origin, ?_⟩, ?_⟩
  · rw [status, hsource, content, find?_put_self hne, hcontent]
    dsimp only
    rw [hfind]
  · intro other hother
    rw [find?_put_of_ne hother, find?_put_of_ne hother]

/-- The links of the archive are unpacked beside the routes. -/
theorem clear_of_extract (h : Empty d₀ path root) (hcontained : sources.Contained) {octets : Bytes}
    (hlinks : sources.Unlinked octets) (hd : Changes (Unlinking root) d₀ d)
    (hd' : Changes (Zip.Unpacks root octets) d d') :
    ∀ route ∈ sources.routes, d'.Clear root route := by
  intro route hroute pass hpass target
  have hbelow := hcontained.below route (List.mem_cons_of_mem _ hroute)
  refine hd'.not_link (fun target ha => ?_) (h.clear hd hbelow pass hpass) target
  obtain ⟨names, hlink, hplace⟩ := ha.2.2 target rfl
  obtain ⟨rel, hrel, rfl⟩ := exists_of_mem_passes hbelow hpass
  rw [List.append_cancel_left hplace] at hrel
  exact hlinks route hroute names hrel hlink

/-- Beside the copy of the worker's archive and the ways to its members all is as it was. -/
def Spared (sources : Sources) (d₀ : Disk) (root : Place) (d : Disk) : Prop :=
  ∃ origin octets, d₀.status true sources.archivePath = .ok (origin, .file octets) ∧
    ∀ place, place ≠ walk root (steps (.ofText sources.workerArchive)) →
      ¬Zip.OnWay root octets place → d.find? place = d₀.find? place

/-- **Once the worker's archive is unpacked, the routes are clear.** -/
theorem ensures_unpackWorker (h : Empty d₀ path root) (hcontained : sources.Contained)
    (hlinks : ∀ origin octets, d₀.status true sources.archivePath = .ok (origin, .file octets) →
      sources.Unlinked octets) :
    Ensures (· = d₀) (unpackWorker sources path)
      (fun workerDir d => workerDir = join path (.ofText sources.workerDir) ∧
        Filling sources d₀ root sources.routes d ∧ Spared sources d₀ root d)
      (fun _ => Changes (Inside root) d₀) := by
  have hrel : isAbsolute (.ofText sources.workerArchive) = false :=
    hcontained.relative _ (by simp)
  have hbelow := hcontained.below (steps (.ofText sources.workerArchive)) (by simp)
  have hmono : ∀ {d : Disk}, Changes (Unlinking root) d₀ d → Changes (Inside root) d₀ d :=
    fun hd => hd.mono fun _ _ ha => ha.1
  have hopen : Ensures
      (Copied d₀ sources.archivePath root (walk root (steps (.ofText sources.workerArchive))))
      (look (·.canonical (join path (.ofText sources.workerArchive))))
      (fun archive d => archive = walk root (steps (.ofText sources.workerArchive)) ∧
        Copied d₀ sources.archivePath root archive d)
      (fun (_ : FileFault) => Changes (Inside root) d₀) := by
    refine (ensures_canonical fun d e hd => hmono hd.changes).to_post ?_
    rintro archive d ⟨hd, hl, -⟩
    obtain ⟨hplace, -⟩ :=
      h.place_inside (hmono hd.changes) (h.clear hd.changes hbelow) hbelow (.one hrel) hl
    have harchive : archive = walk root (steps (.ofText sources.workerArchive)) := hplace
    exact ⟨harchive, harchive ▸ hd⟩
  have hextract : ∀ archive, Ensures
      (fun d => archive = walk root (steps (.ofText sources.workerArchive)) ∧
        Copied d₀ sources.archivePath root archive d)
      (Zip.extract archive path)
      (fun _ d => Changes (Inside root) d₀ d ∧
        (∀ route ∈ sources.routes, d.Clear root route) ∧ Spared sources d₀ root d)
      (fun _ => Changes (Inside root) d₀) := by
    rintro archive d ⟨rfl, hd, ⟨origin, hsource⟩, helsewhere⟩
    have hleads := h.leads_of_changes (hmono hd)
    obtain ⟨hok, herror⟩ := Zip.ensures_extract (hd.wellFormed h.wellFormed)
      (walk root (steps (.ofText sources.workerArchive))) hleads (hd.hasDir h.hasDir) d rfl
    have hinside : ∀ {d' : Disk} {octets : Bytes}, Changes (Zip.Unpacks root octets) d d' →
        Changes (Inside root) d₀ d' :=
      fun hd' => (hmono hd).trans (hd'.mono fun _ _ ha => ha.1)
    refine ⟨fun _ d' hrun => ?_, fun e d' hrun => hinside (herror e d' hrun)⟩
    have hd' := hok _ d' hrun
    refine ⟨hinside hd', clear_of_extract h hcontained (hlinks origin _ hsource) hd hd',
      origin, _, hsource, fun place hplace hway => ?_⟩
    exact (hd'.untouched fun node ha => hway ha.2.1).trans (helsewhere place hplace)
  refine ensures_bind (ensures_adapt (ensures_copyArchive h hrel hbelow)) fun _ => ?_
  refine ensures_bind (ensures_adapt hopen) fun archive => ?_
  refine ensures_bind (ensures_adapt (hextract archive)) fun _ => ?_
  -- The directory that the worker runs in has to be there.
  have hget : Ensures
      (fun d => Changes (Inside root) d₀ d ∧
        (∀ route ∈ sources.routes, d.Clear root route) ∧ Spared sources d₀ root d)
      (get : DiskAction Error Disk)
      (fun now d => now = d ∧ Changes (Inside root) d₀ d ∧
        (∀ route ∈ sources.routes, d.Clear root route) ∧ Spared sources d₀ root d)
      (fun _ => Changes (Inside root) d₀) :=
    ensures_get fun d hd => ⟨rfl, hd⟩
  refine ensures_bind hget fun now => ?_
  split
  · next hisDir =>
    refine ensures_pure ?_
    rintro d ⟨rfl, hd, hclear, hspared⟩
    refine ⟨rfl, ⟨hd, ?_, hclear⟩, hspared⟩
    obtain ⟨place, hl, hdir⟩ := exists_of_isDir hisDir
    have hroute := hclear (sources.workerRoute ++ steps macrosName) (by simp [Sources.routes])
    have hworker : now.Clear root sources.workerRoute := fun pass hpass =>
      hroute pass (by rw [passes_append]; exact List.mem_append_left _ hpass)
    exact (h.leads_of_changes hd).hasDir_passes
      (.one (hcontained.relative sources.workerDir (by simp))) hworker hl hdir
  · exact ensures_throw fun d hd => hd.2.1

/-! ### What is put in the worker's directory -/

theorem named_pluginsName : Named pluginsName :=
  ⟨by decide +kernel, by decide +kernel⟩

theorem slash_notMem_pluginsName : slash ∉ pluginsName := by decide +kernel

theorem named_macrosName : Named macrosName :=
  ⟨by decide +kernel, by decide +kernel⟩

theorem slash_notMem_macrosName : slash ∉ macrosName := by decide +kernel

/-- A file is copied along a route. -/
theorem ensures_copyBelow (h : Empty d₀ path root) {source target : Path}
    (htarget : Below path target names) (hroute : names ∈ routes)
    (hbelow : staysBelow 0 names = true) :
    Ensures (Filling sources d₀ root routes) (copy source target)
      (fun _ => Filling sources d₀ root routes) (fun _ => Changes (Inside root) d₀) := by
  refine ensures_copy ?_ fun d e hd => hd.changes
  rintro d origin octets spot hd - - hl hno
  obtain ⟨-, hinside⟩ := h.place_inside hd.changes (hd.clear names hroute) hbelow htarget hl
  have hput : Changes (Unlinking root) d (d.put spot.place (.file [])) :=
    Changes.refl.put_file (hd.changes.wellFormed h.wellFormed) hl hno ⟨hinside, by simp⟩
  have hne := ne_nil_of_not_hasDir hno
  exact hd.step (hput.put_content (find?_put_self hne) ⟨hinside, by simp⟩)

/-- The path of the worker's directory leads there all the time. -/
theorem Filling.leads (hd : Filling sources d₀ root routes d) (h : Empty d₀ path root)
    (hcontained : sources.Contained) :
    d.Leads (join path (.ofText sources.workerDir)) (walk root sources.workerRoute) :=
  (h.leads_of_changes hd.changes).below (hd.changes.wellFormed h.wellFormed)
    (hd.changes.hasDir h.hasDir) (.one (hcontained.relative sources.workerDir (by simp))) hd.dirs

/-- The worker's directory lies inside. -/
theorem prefix_worker (hcontained : sources.Contained) (root : Place) :
    root <+: walk root sources.workerRoute := by
  have hroute :=
    hcontained.below (sources.workerRoute ++ steps macrosName) (by simp [Sources.routes])
  exact prefix_walk (staysBelow_of_append hroute) root

/-- A directory is made in the worker's directory unless it is there. -/
theorem ensures_makeDirsBelow (h : Empty d₀ path root) (hcontained : sources.Contained)
    {name : Name} (hn : Named name) (hs : slash ∉ name) :
    Ensures (Filling sources d₀ root routes)
      (makeDirs (join (join path (.ofText sources.workerDir)) name))
      (fun _ => Filling sources d₀ root routes) (fun _ => Changes (Inside root) d₀) := by
  have hworker : isAbsolute (.ofText sources.workerDir) = false := hcontained.relative _ (by simp)
  have hne : join (join path (.ofText sources.workerDir)) name ≠ [] :=
    join_ne_nil (join_ne_nil h.leads.ne_nil hworker) (isAbsolute_of_notMem hs)
  refine ensures_makeDirs hne ?_ (fun d hd _ => hd) ?_ fun d e hd => hd.changes
  · intro d spot hd hl hnone
    refine hd.step
      (Changes.refl.put_vacant (hd.changes.wellFormed h.wellFormed) hl hnone ⟨?_, by simp⟩)
    rcases (hd.leads h hcontained).locate_name false hn hs (by simp) with
      ⟨spot', hl', hplace⟩ | ⟨e, he, -⟩
    · rw [hl] at hl'
      cases hl'
      rw [hplace]
      exact (prefix_worker hcontained root).trans (List.prefix_append ..)
    · rw [hl] at he
      cases he
  · intro d hd hmissing
    rcases (hd.leads h hcontained).locate_name false hn hs (by simp) with
      ⟨spot', hl', -⟩ | ⟨e, he, hne⟩
    · rw [hmissing] at hl'
      cases hl'
    · rw [hmissing] at he
      cases he
      exact hne rfl

/-- The directory for the plugin's data is new, so the worker's directory does not lie in it. -/
theorem ensures_makeData (h : Empty d₀ path root) {data : Path}
    (hdata : Below path data names) (hroute : names ∈ routes) (hbelow : staysBelow 0 names = true) :
    Ensures (Filling sources d₀ root routes) (makeDir data 0o700)
      (fun _ d => ¬walk root names <+: walk root sources.workerRoute ∧
        Filling sources d₀ root routes d)
      (fun _ => Changes (Inside root) d₀) := by
  refine ensures_makeDir ?_ (fun d hd => hd.changes) fun d e hd _ => hd.changes
  intro d spot hd hl hnone
  obtain ⟨hplace, hinside⟩ := h.place_inside hd.changes (hd.clear names hroute) hbelow hdata hl
  have hwf := hd.changes.wellFormed h.wellFormed
  refine ⟨fun hwithin => ?_, hd.step (Changes.refl.put_vacant hwf hl hnone ⟨hinside, by simp⟩)⟩
  obtain ⟨mode, hfind⟩ := hasDir_walk hwf (hd.changes.hasDir h.hasDir) hd.dirs
  rw [← hplace] at hwithin
  rw [hwf.find?_of_prefix hnone hwithin] at hfind
  cases hfind

/-- A bundle is unpacked where a route leads. -/
theorem ensures_unpackBundle (h : Empty d₀ path root) (bundle : Bytes) {directory : Path}
    (hdirectory : Below path directory names) (hroute : names ∈ routes)
    (hbelow : staysBelow 0 names = true) :
    Ensures (Filling sources d₀ root routes) (unpackBundle bundle directory)
      (fun _ d' => ∃ d, Filling sources d₀ root routes d ∧
        Changes (Tar.Unpacks (walk root names)) d d')
      (fun _ => Changes (Inside root) d₀) := by
  refine ensures_adapt ?_
  intro d hd
  have hplace : ∀ place, d.locate true directory = .ok (.reached place) → place = walk root names :=
    fun place hl => (h.place_inside hd.changes (hd.clear names hroute) hbelow hdirectory hl).1
  have hinside : root <+: walk root names := prefix_walk hbelow root
  obtain ⟨hok, herror⟩ :=
    Tar.ensures_unpack (hd.changes.wellFormed h.wellFormed) bundle hplace d rfl
  refine ⟨fun _ d' hrun => ⟨d, hd, hok _ d' hrun⟩, fun e d' hrun => ?_⟩
  exact hd.changes.trans ((herror e d' hrun).mono fun _ _ ha => hinside.trans ha.1)

/-- Links in the plugin's data do not lie on the way to the scripts. -/
theorem filling_of_unpacked {data : List Name}
    (hdata : root <+: walk root data)
    (hnew : ¬walk root data <+: walk root sources.workerRoute)
    (hd : Filling sources d₀ root sources.routes d)
    (hd' : Changes (Tar.Unpacks (walk root data)) d d') :
    Filling sources d₀ root [sources.workerRoute ++ steps macrosName] d' where
  changes := hd.changes.trans (hd'.mono fun _ _ ha => hdata.trans ha.1)
  dirs pass hpass := hd'.hasDir (hd.dirs pass hpass)
  clear := by
    intro route hroute pass hpass target
    obtain rfl := List.mem_singleton.mp hroute
    have hclear := hd.clear _ (by simp [Sources.routes]) pass hpass
    rw [passes_append] at hpass
    rcases List.mem_append.mp hpass with hpass | hpass
    · exact (hd'.hasDir (hd.dirs pass hpass)).firm.not_link target
    · refine hd'.not_link (fun target ha => ?_) hclear target
      rw [steps_of_named named_macrosName slash_notMem_macrosName, passes,
        if_neg (by decide +kernel), passes, List.mem_singleton] at hpass
      obtain ⟨hwithin, hne⟩ := ha
      rw [hpass] at hwithin hne
      rcases List.prefix_concat_iff.mp hwithin with heq | hwithin
      · exact hne target rfl heq.symm
      · exact hnew hwithin

/-- **Filling an empty directory changes nothing outside it.** -/
theorem ensures_populate (h : Empty d₀ path root) (hcontained : sources.Contained)
    (hlinks : ∀ origin octets, d₀.status true sources.archivePath = .ok (origin, .file octets) →
      sources.Unlinked octets) (bundle : Bytes) :
    Ensures (· = d₀) (populate sources bundle path)
      (fun _ => Changes (Inside root) d₀) (fun _ => Changes (Inside root) d₀) := by
  have hworker : Below path (join path (.ofText sources.workerDir)) sources.workerRoute :=
    .one (hcontained.relative sources.workerDir (by simp))
  have hbelow : ∀ route ∈ sources.routes, staysBelow 0 route = true := fun route hroute =>
    hcontained.below route (List.mem_cons_of_mem _ hroute)
  refine ensures_bind_fact (ensures_unpackWorker h hcontained hlinks) ?_
  rintro workerDir rfl
  have hloader := hworker.more (hcontained.relative sources.loader (by simp))
  have hplugins := hworker.more (isAbsolute_of_notMem slash_notMem_pluginsName)
  have hplugin := hplugins.more (hcontained.relative sources.filterPlugin (by simp))
  have hdata := hplugins.more (hcontained.relative sources.dataDir (by simp))
  have hmacros := hworker.more (isAbsolute_of_notMem slash_notMem_macrosName)
  have hroutes : ∀ route ∈ sources.routes, route ∈ sources.routes ∧ staysBelow 0 route = true :=
    fun route hroute => ⟨hroute, hbelow route hroute⟩
  obtain ⟨hloaderRoute, hloaderBelow⟩ :=
    hroutes (sources.workerRoute ++ steps (.ofText sources.loader)) (by simp [Sources.routes])
  obtain ⟨hpluginRoute, hpluginBelow⟩ :=
    hroutes (sources.workerRoute ++ steps pluginsName ++ steps (.ofText sources.filterPlugin))
      (by simp [Sources.routes])
  obtain ⟨hdataRoute, hdataBelow⟩ :=
    hroutes (sources.workerRoute ++ steps pluginsName ++ steps (.ofText sources.dataDir))
      (by simp [Sources.routes])
  obtain ⟨-, hmacrosBelow⟩ :=
    hroutes (sources.workerRoute ++ steps macrosName) (by simp [Sources.routes])
  refine ensures_bind (ensures_adapt
    ((ensures_copyBelow h hloader hloaderRoute hloaderBelow).of_pre fun d hd => hd.1)) fun _ => ?_
  refine ensures_bind (ensures_adapt
    (ensures_makeDirsBelow h hcontained named_pluginsName slash_notMem_pluginsName)) fun _ => ?_
  refine ensures_bind (ensures_adapt
    (ensures_copyBelow h hplugin hpluginRoute hpluginBelow)) fun _ => ?_
  refine ensures_bind_fact (ensures_adapt (ensures_makeData h hdata hdataRoute hdataBelow))
    fun _ hnew => ?_
  refine ensures_bind (ensures_unpackBundle h bundle hdata hdataRoute hdataBelow) fun _ => ?_
  have hmakeMacros :
      Ensures (Filling sources d₀ root [sources.workerRoute ++ steps macrosName])
        (makeDirs (join (join path (.ofText sources.workerDir)) macrosName))
        (fun _ => Filling sources d₀ root [sources.workerRoute ++ steps macrosName])
        (fun _ => Changes (Inside root) d₀) :=
    ensures_makeDirsBelow h hcontained named_macrosName slash_notMem_macrosName
  refine ensures_bind (ensures_adapt (hmakeMacros.of_pre ?_)) fun _ => ?_
  · rintro d' ⟨d, hd, hd'⟩
    exact filling_of_unpacked (prefix_walk hdataBelow root) hnew hd hd'
  refine ensures_bind (ensures_unpackBundle h bundle hmacros List.mem_cons_self hmacrosBelow)
    fun _ => ensures_pure ?_
  rintro d' ⟨d, hd, hd'⟩
  exact hd.changes.trans (hd'.mono fun _ _ ha => (prefix_walk hmacrosBelow root).trans ha.1)

end Workspace

end ImageScoring
