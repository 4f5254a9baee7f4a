import ImageScoring.Archive.Tar.Unpack
import ImageScoring.Proofs.Files.Actions

/-!
# Where tar archives are unpacked

Unpacking a tar archive changes nothing outside the directory that it is unpacked to, whatever the
names of its members and wherever its links lead; and it never puts a link in the place of that
directory (`ensures_unpack`).
-/

namespace ImageScoring.Tar

open ImageScoring.Path DiskAction Disk

/-- What unpacking may change: something inside the directory, and no link in its own place. -/
def Unpacks (root place : Place) (node : Option Node) : Prop :=
  root <+: place ∧ ∀ target, node = some (.link target) → place ≠ root

theorem named_of_namesBelow? {steps : List Component} {names : List Name}
    (h : namesBelow? steps = some names) {name : Name} (hname : name ∈ names) :
    .named name ∈ steps := by
  induction steps generalizing names with
  | nil =>
    cases h
    cases hname
  | cons step steps ih =>
    cases step with
    | up => cases h
    | root => exact List.mem_cons_of_mem _ (ih h hname)
    | here => exact List.mem_cons_of_mem _ (ih h hname)
    | named last =>
      obtain ⟨rest, hrest, rfl⟩ := Option.map_eq_some_iff.mp h
      rcases List.mem_cons.mp hname with rfl | hname
      · exact List.mem_cons_self
      · exact List.mem_cons_of_mem _ (ih hrest hname)

/-! ### Making room -/

/-- Links not followed, a path names that place. -/
def Reaches (path : Path) (place : Place) (d : Disk) : Prop :=
  ∀ spot, d.locate false path = .ok spot → spot.place = place

/-- What is in the way of something is removed, and then the way leads to the same place. -/
theorem ensures_replacing {α : Type} {path : Path} {place : Place}
    {action : DiskAction FileFault α} {I : Disk → Prop} {Q : α → Disk → Prop}
    (haction : Ensures (fun d => I d ∧ Reaches path place d) action Q
      (fun _ d => I d ∧ Reaches path place d))
    (herase : ∀ d node, I d → d.find? place = some node → (∀ mode, node ≠ .dir mode) →
      I (d.erase place)) :
    Ensures (fun d => I d ∧ Reaches path place d) (replacing path action) Q (fun _ => I) := by
  refine ensures_tryCatch haction fun fault => ?_
  by_cases hthere : fault = .alreadyThere
  · rw [if_pos hthere]
    have hremove : Ensures (fun d => I d ∧ Reaches path place d) (remove path)
        (fun _ d => I d ∧ Reaches path place d) (fun _ => I) := by
      refine ensures_remove ?_ fun d e hd => hd.1
      rintro d there node ⟨hd, hreaches⟩ hl hfind hno
      obtain rfl : there = place := hreaches _ hl
      have hnoDir : ¬d.HasDir there := by
        rintro ⟨mode, hdir⟩
        rw [hfind] at hdir
        exact hno mode (Option.some.inj hdir)
      exact ⟨herase d node hd hfind hno, fun spot hspot => place_of_locate_erase hnoDir hl hspot⟩
    refine ensures_bind hremove fun _ => ?_
    exact haction.weaken (fun d hd => hd) (fun x d hq => hq) fun e d hd => hd.1
  · rw [if_neg hthere]
    exact ensures_throw fun d hd => hd.1

/-! ### The parts of unpacking -/

/-- A path that is not refused leads inside the directory. -/
theorem ensures_confine {root : Place} {P : Disk → Prop} {E : Fault → Disk → Prop} {path : Path}
    (herror : ∀ d e, P d → E e d) :
    Ensures P (confine root path)
      (fun _ d => P d ∧ ∃ place, d.Leads path place ∧ root <+: place) E := by
  refine ensures_bind (ensures_adapt (ensures_canonical fun d e hd => herror d _ hd))
    fun there => ?_
  split
  · next hinside =>
    refine ensures_pure ?_
    rintro d ⟨hd, hl, -⟩
    exact ⟨hd, there, leads_of_locate hl, List.isPrefixOf_iff_prefix.mp hinside⟩
  · exact ensures_throw fun d hd => herror d _ hd.1

/-- A directory is made where nothing was, or it is there. -/
theorem ensures_makeDir_of {path : Path} {P : Disk → Prop} {Q : Unit → Disk → Prop}
    {E : Fault → Disk → Prop}
    (hput : ∀ d spot, P d → d.locate false path = .ok spot → d.find? spot.place = none →
      Q () (d.put spot.place (.dir plainMode)))
    (hthere : ∀ d there mode, P d → d.status false path = .ok (there, .dir mode) → Q () d)
    (herror : ∀ d e, P d → E e d) : Ensures P (makeDir path) Q E := by
  have hmake : Ensures P (Disk.makeDir path plainMode) Q (fun _ => P) :=
    Disk.ensures_makeDir hput (fun _ hd => hd) fun _ _ hd _ => hd
  refine ensures_adapt (ensures_tryCatch hmake fun fault => ?_)
  have hget : Ensures P (get : DiskAction FileFault Disk) (fun now d => now = d ∧ P d)
      (fun e d => E (.disk e) d) :=
    ensures_get fun _ hd => ⟨rfl, hd⟩
  refine ensures_bind hget fun now => ?_
  split
  · next there mode hfound =>
    split
    · refine ensures_pure ?_
      rintro d ⟨rfl, hd⟩
      exact hthere now there mode hd hfound
    · exact ensures_throw fun d hd => herror d _ hd.2
  · exact ensures_throw fun d hd => herror d _ hd.2

/-- What is missing of one directory is made, and then the rest below it. -/
theorem ensures_makeMissing_cons {root : Place} {base : Path} {name : Name} {names : List Name}
    {P P' : Disk → Prop} {Q : Unit → Disk → Prop} {E : Fault → Disk → Prop}
    (hmake : Ensures (fun d => P d ∧ ∃ place, d.Leads base place ∧ root <+: place)
      (onDisk (makeDirs (join base name))) (fun _ => P') E)
    (hthere : ∀ d found, P d → d.status false (join base name) = .ok found → P' d)
    (herror : ∀ d e, P d → E e d)
    (hrest : Ensures P' (makeMissing root (join base name) names) Q E) :
    Ensures P (makeMissing root base (name :: names)) Q E := by
  have hget : Ensures P (get : Unpacking Disk) (fun now d => now = d ∧ P d) E :=
    ensures_get fun _ hd => ⟨rfl, hd⟩
  refine ensures_bind hget fun now => ?_
  split
  · have hconfine : Ensures (fun d => now = d ∧ P d) (confine root base)
        (fun _ d => P d ∧ ∃ place, d.Leads base place ∧ root <+: place) E :=
      (ensures_confine fun d e hd => herror d e hd).of_pre fun _ hd => hd.2
    refine ensures_bind hconfine fun _ => ?_
    exact ensures_bind hmake fun _ => hrest
  · next hsome =>
    refine hrest.of_pre ?_
    rintro d ⟨rfl, hd⟩
    cases hstatus : now.status false (join base name) with
    | error fault =>
      rw [hstatus] at hsome
      exact absurd rfl hsome
    | ok found => exact hthere now found hd hstatus

/-- The members are read and unpacked where the directory lies. -/
theorem ensures_unpack_of {archive : Bytes} {directory : Path} {d₀ : Disk} {root : Place}
    {Q : Unit → Disk → Prop} {E : Fault → Disk → Prop}
    (hdirectory : ∀ place, d₀.locate true directory = .ok (.reached place) → place = root)
    (hunpack : ∀ found, Tar.members archive = .ok found →
      Ensures (· = d₀) ((ordered found).forM (unpackMember root)) Q E)
    (herror : ∀ e, E e d₀) : Ensures (· = d₀) (unpack archive directory) Q E := by
  have hcanonical : Ensures (· = d₀) (look (·.canonical directory))
      (fun place d => place = root ∧ d = d₀) (fun e d => E (.disk e) d) := by
    refine (ensures_canonical ?_).to_post ?_
    · rintro d e rfl
      exact herror _
    · rintro place d ⟨rfl, hl, -⟩
      exact ⟨hdirectory place hl, rfl⟩
  refine ensures_bind_fact (ensures_adapt hcanonical) ?_
  rintro place rfl
  have hmembers : Ensures (· = d₀) (liftM (members archive) : Unpacking (List Member))
      (fun found d => members archive = .ok found ∧ d = d₀) E := by
    refine ensures_liftM (fun d found hd hfound => ⟨hfound, hd⟩) ?_
    rintro d e rfl -
    exact herror e
  exact ensures_bind_fact hmembers hunpack

/-! ### What may change -/

theorem unpacks_file {root place : Place} (h : root <+: place) (content : Bytes) :
    Unpacks root place (some (.file content)) :=
  ⟨h, fun target heq => by cases heq⟩

/-- Below the directory anything may be put. -/
theorem unpacks_below {root place : Place} {name : Name} (h : root <+: place) (node : Option Node) :
    Unpacks root (place ++ [name]) node := by
  refine ⟨h.trans (List.prefix_append ..), fun _ _ heq => ?_⟩
  have hlength := h.length_le
  rw [← heq, List.length_append, List.length_singleton] at hlength
  omega

/-- A path leads to a place inside the directory, where something is to be unpacked. -/
structure Target (root : Place) (base : Path) (place : Place) (d : Disk) : Prop where
  leads : d.Leads base place
  inside : root <+: place

section

variable {d d₀ : Disk} {root place : Place} {base : Path} {name : Name} {spot : Spot}

theorem Target.reaches (h : Target root base place d) (hn : Named name) (hs : slash ∉ name) :
    Reaches (join base name) (place ++ [name]) d := by
  intro spot hl
  rcases h.leads.locate_name false hn hs (by simp) with ⟨spot', hl', hplace⟩ | ⟨e, he, -⟩
  · rw [hl] at hl'
    cases hl'
    exact hplace
  · rw [hl] at he
    cases he

theorem Target.not_missing (h : Target root base place d) (hn : Named name) (hs : slash ∉ name) :
    d.locate false (join base name) ≠ .error .missing := by
  intro hmissing
  rcases h.leads.locate_name false hn hs (by simp) with ⟨spot, hl, -⟩ | ⟨e, he, hne⟩
  · rw [hmissing] at hl
    cases hl
  · rw [hmissing] at he
    cases he
    exact hne rfl

/-! ### Directories -/

variable (hd₀ : d₀.WellFormed)

include hd₀ in
/-- The directories that are missing are made inside. -/
theorem ensures_makeMissing {names : List Name}
    (hnames : ∀ name ∈ names, Named name ∧ slash ∉ name) :
    Ensures (Changes (Unpacks root) d₀) (makeMissing root base names)
      (fun _ => Changes (Unpacks root) d₀) (fun _ => Changes (Unpacks root) d₀) := by
  induction names generalizing base with
  | nil => exact ensures_pure fun d hd => hd
  | cons name names ih =>
    obtain ⟨⟨hn, hs⟩, hrest⟩ := List.forall_mem_cons.mp hnames
    have hmake : Ensures
        (fun d => ∃ place, Changes (Unpacks root) d₀ d ∧ Target root base place d)
        (onDisk (makeDirs (join base name))) (fun _ => Changes (Unpacks root) d₀)
        (fun _ => Changes (Unpacks root) d₀) := by
      refine ensures_exists fun place => ?_
      by_cases hne : join base name = []
      · rintro d ⟨-, htarget⟩
        exact absurd hne (join_ne_nil htarget.leads.ne_nil (isAbsolute_of_notMem hs))
      refine ensures_adapt (ensures_makeDirs hne ?_ (fun d hd _ => hd.1)
        (fun d hd => hd.2.not_missing hn hs) fun d e hd => hd.1)
      rintro d spot ⟨hd, htarget⟩ hl hnone
      refine hd.put_vacant (hd.wellFormed hd₀) hl hnone ?_
      rw [htarget.reaches hn hs spot hl]
      exact unpacks_below htarget.inside _
    refine ensures_makeMissing_cons (hmake.of_pre ?_) (fun d found hd _ => hd) (fun d e hd => hd)
      (ih hrest)
    rintro d ⟨hd, place, hleads, hinside⟩
    exact ⟨place, hd, hleads, hinside⟩

include hd₀ in
/-- A directory is made, or it is there. -/
theorem ensures_makeDir (hn : Named name) (hs : slash ∉ name) :
    Ensures (fun d => Changes (Unpacks root) d₀ d ∧ Target root base place d)
      (makeDir (join base name))
      (fun _ d => Changes (Unpacks root) d₀ d ∧ Target root base place d ∧
        d.HasDir (place ++ [name]))
      (fun _ => Changes (Unpacks root) d₀) := by
  refine ensures_makeDir_of ?_ ?_ fun d e hd => hd.1
  · rintro d spot ⟨hd, htarget⟩ hl hnone
    have hspot := htarget.reaches hn hs spot hl
    have hmade := hd.put_vacant (hd.wellFormed hd₀) hl hnone
      (hspot ▸ unpacks_below htarget.inside (some (.dir plainMode)))
    have hkeeps := keeps_put hnone (.dir plainMode)
    rw [hspot] at hmade hkeeps ⊢
    exact ⟨hmade, ⟨htarget.leads.keeps hkeeps, htarget.inside⟩, plainMode, find?_put_self (by simp)⟩
  · rintro d there mode ⟨hd, htarget⟩ hfound
    obtain ⟨-, hfind⟩ := (htarget.leads.status_name hn hs).2 _ hfound
    exact ⟨hd, htarget, mode, hfind⟩

/-- The permissions that are set are those of that directory. -/
theorem ensures_setMode (m : Member) (hn : Named name) (hs : slash ∉ name) :
    Ensures (fun d => Changes (Unpacks root) d₀ d ∧ Target root base place d ∧
        d.HasDir (place ++ [name]))
      (setMode m (join base name)) (fun _ => Changes (Unpacks root) d₀)
      (fun _ => Changes (Unpacks root) d₀) := by
  unfold setMode
  split
  · refine ensures_adapt (Disk.ensures_setMode ?_ (fun d _ _ hd _ _ _ => hd.1) fun d e hd => hd.1)
    rintro d there old ⟨hd, htarget, hdir⟩ hl hold
    refine hd.put_mode hold ?_
    rcases htarget.leads.locate_name true hn hs fun _ => hdir.firm.not_link with
      ⟨spot, hl', hplace⟩ | ⟨e, he, -⟩
    · rw [hl] at hl'
      cases hl'
      have hthere : there = place ++ [name] := hplace
      rw [hthere]
      exact unpacks_below htarget.inside _
    · rw [hl] at he
      cases he
  · exact ensures_pure fun d hd => hd.1

/-! ### Members -/

/-- Something new is put in the place of a member. -/
theorem Changes.put_below {path : Path} {node : Node} (hd₀ : d₀.WellFormed)
    (hd : Changes (Unpacks root) d₀ d) (hinside : root <+: place)
    (hreaches : Reaches path (place ++ [name]) d) (hl : d.locate false path = .ok spot)
    (hnone : d.find? spot.place = none) : Changes (Unpacks root) d₀ (d.put spot.place node) := by
  refine hd.put_vacant (hd.wellFormed hd₀) hl hnone ?_
  rw [hreaches spot hl]
  exact unpacks_below hinside _

/-- A file or a link takes the place of a member. -/
theorem ensures_replacing_below {α : Type} {path : Path} {action : DiskAction FileFault α}
    {Q : α → Disk → Prop} (hinside : root <+: place)
    (haction : Ensures (fun d => Changes (Unpacks root) d₀ d ∧ Reaches path (place ++ [name]) d)
      action Q (fun _ d => Changes (Unpacks root) d₀ d ∧ Reaches path (place ++ [name]) d)) :
    Ensures (fun d => Changes (Unpacks root) d₀ d ∧ Reaches path (place ++ [name]) d)
      (replacing path action) Q (fun _ => Changes (Unpacks root) d₀) :=
  ensures_replacing haction fun _ _ hd hfind hno =>
    hd.erase hfind hno (unpacks_below hinside none)

/-- A link without a target is refused before anything is done. -/
theorem ensures_target (m : Member) {P R : Disk → Prop} (hP : ∀ d, P d → R d) :
    Ensures P
      (match m.target with
        | none => throw (.malformed "hard link listed but no link name found")
        | some target =>
          if (components target).isEmpty then throw (.malformed "symlink destination is empty")
          else pure target : Unpacking Path)
      (fun _ => P) (fun _ => R) := by
  split
  · exact ensures_throw hP
  · split
    · exact ensures_throw hP
    · exact ensures_pure fun _ hd => hd

include hd₀ in
/-- **Unpacking a member changes nothing outside the directory.** -/
theorem ensures_unpackTo (m : Member) (hn : Named name) (hs : slash ∉ name)
    (hinside : root <+: place) :
    Ensures (fun d => Changes (Unpacks root) d₀ d ∧ Target root base place d)
      (unpackTo root m (join base name)) (fun _ => Changes (Unpacks root) d₀)
      (fun _ => Changes (Unpacks root) d₀) := by
  have hdir : Ensures (fun d => Changes (Unpacks root) d₀ d ∧ Target root base place d)
      (do makeDir (join base name); setMode m (join base name))
      (fun _ => Changes (Unpacks root) d₀) (fun _ => Changes (Unpacks root) d₀) :=
    ensures_bind (ensures_makeDir hd₀ hn hs) fun _ => ensures_setMode m hn hs
  have hreaches : ∀ d, Changes (Unpacks root) d₀ d ∧ Target root base place d →
      Changes (Unpacks root) d₀ d ∧ Reaches (join base name) (place ++ [name]) d :=
    fun d hd => ⟨hd.1, hd.2.reaches hn hs⟩
  have hcreate : Ensures
      (fun d => Changes (Unpacks root) d₀ d ∧ Reaches (join base name) (place ++ [name]) d)
      (createNew (join base name))
      (fun there d =>
        Changes (Unpacks root) d₀ d ∧ root <+: there ∧ d.find? there = some (.file []))
      (fun _ d => Changes (Unpacks root) d₀ d ∧ Reaches (join base name) (place ++ [name]) d) := by
    refine ensures_createNew ?_ fun d e hd => hd
    rintro d spot ⟨hd, hreaches⟩ hl hnone
    have hspot := hreaches spot hl
    exact ⟨Changes.put_below hd₀ hd hinside hreaches hl hnone,
      hspot ▸ hinside.trans (List.prefix_append ..), find?_put_self (ne_nil_of_vacant hnone)⟩
  have hfile : Ensures (fun d => Changes (Unpacks root) d₀ d ∧ Target root base place d)
      (do
        let there ← onDisk (replacing (join base name) (createNew (join base name)))
        onDisk (Disk.write there m.content))
      (fun _ => Changes (Unpacks root) d₀) (fun _ => Changes (Unpacks root) d₀) := by
    refine ensures_bind (ensures_adapt
      ((ensures_replacing_below hinside hcreate).of_pre hreaches)) fun there => ?_
    refine ensures_adapt (ensures_putAt ?_)
    rintro d ⟨hd, hthere, hfind⟩
    exact hd.put_content hfind (unpacks_file hthere _)
  have hlink : ∀ target, Ensures
      (fun d => Changes (Unpacks root) d₀ d ∧ Target root base place d)
      (onDisk (replacing (join base name) (Disk.link target (join base name))))
      (fun _ => Changes (Unpacks root) d₀) (fun _ => Changes (Unpacks root) d₀) := by
    intro target
    refine ensures_adapt ((ensures_replacing_below hinside ?_).of_pre hreaches)
    refine ensures_link ?_ fun d e hd => hd
    rintro d spot ⟨hd, hreaches⟩ hl hnone
    exact Changes.put_below hd₀ hd hinside hreaches hl hnone
  have hname : ∀ target, Ensures
      (fun d => Changes (Unpacks root) d₀ d ∧ Target root base place d)
      (do
        confine root (join root.path target)
        onDisk (Disk.name (join root.path target) (join base name)))
      (fun _ => Changes (Unpacks root) d₀) (fun _ => Changes (Unpacks root) d₀) := by
    intro target
    refine ensures_bind (ensures_confine fun d e hd => hd.1) fun _ => ?_
    refine ensures_adapt (ensures_name ?_ fun d e hd => hd.1.1)
    rintro d spot node ⟨⟨hd, htarget⟩, -⟩ hl hnone -
    exact Changes.put_below hd₀ hd hinside (htarget.reaches hn hs) hl hnone
  have htarget := ensures_target m fun d
    (hd : Changes (Unpacks root) d₀ d ∧ Target root base place d) => hd.1
  unfold unpackTo
  dsimp only
  cases m.kind with
  | dir => exact hdir
  | link => exact ensures_bind htarget hlink
  | hardLink => exact ensures_bind htarget hname
  | longName => exact ensures_pure fun d hd => hd.1
  | longTarget => exact ensures_pure fun d hd => hd.1
  | attributes => exact ensures_pure fun d hd => hd.1
  | globalAttributes => exact ensures_pure fun d hd => hd.1
  | sparse =>
    dsimp only
    split
    · exact hdir
    · exact hfile
  | file =>
    dsimp only
    split
    · exact hdir
    · exact hfile

include hd₀ in
theorem ensures_unpackMember (m : Member) :
    Ensures (Changes (Unpacks root) d₀) (unpackMember root m)
      (fun _ => Changes (Unpacks root) d₀) (fun _ => Changes (Unpacks root) d₀) := by
  unfold unpackMember
  split
  · exact ensures_pure fun d hd => hd
  · next names hnames =>
    have hnamed : ∀ name ∈ names, Named name ∧ slash ∉ name := fun name hname =>
      named_of_mem_components (named_of_namesBelow? hnames hname)
    split
    · exact ensures_pure fun d hd => hd
    · next last hlast =>
      obtain ⟨hn, hs⟩ := hnamed last (List.mem_of_getLast? hlast)
      refine ensures_bind (ensures_makeMissing hd₀ fun name hname =>
        hnamed name ((List.dropLast_sublist names).subset hname)) fun _ => ?_
      refine ensures_bind (ensures_confine fun d e hd => hd) fun _ => ?_
      rintro d ⟨hd, place, hleads, hinside⟩
      exact ensures_unpackTo hd₀ m hn hs hinside d ⟨hd, hleads, hinside⟩

include hd₀ in
/-- **Unpacking an archive changes nothing outside the directory.** -/
theorem ensures_unpack (archive : Bytes) {directory : Path}
    (hdirectory : ∀ place, d₀.locate true directory = .ok (.reached place) → place = root) :
    Ensures (· = d₀) (unpack archive directory)
      (fun _ => Changes (Unpacks root) d₀) (fun _ => Changes (Unpacks root) d₀) := by
  refine ensures_unpack_of hdirectory (fun found _ => ?_) fun _ => .refl
  refine (ensures_forM fun m _ => ensures_unpackMember hd₀ m).of_pre ?_
  rintro d rfl
  exact .refl

end

end ImageScoring.Tar
