import ImageScoring.Proofs.Archive.Unpacking
import Mathlib.Logic.Function.Basic

/-!
# What unpacked tar archives hold

An archive without links that is unpacked to an empty directory leaves a tree there that is told
from its members alone, wherever the directory lies (`ensures_unpack_tree`): one after the other, in
the order in which they are unpacked, the members add the directories that are missing above them
and then their own directory or file (`Tree.add`).
-/

namespace ImageScoring.Tar

open ImageScoring.Path DiskAction Disk

/-- What lies below a directory, by the names from there on. -/
abbrev Tree := List Name → Option Node

namespace Tree

/-- The tree with a directory where nothing was. -/
def makeDir (t : Tree) (names : List Name) : Tree :=
  if t names = none then Function.update t names (some (.dir plainMode)) else t

/-- The tree with the directories `names` below `above`, where nothing was. -/
def makeMissing (t : Tree) (above : List Name) : List Name → Tree
  | [] => t
  | name :: names => (t.makeDir (above ++ [name])).makeMissing (above ++ [name]) names

/-- The tree with the directory of a member. -/
def putDir (t : Tree) (m : Member) (names : List Name) : Tree :=
  match m.mode with
  | some mode => Function.update t names (some (.dir (mode &&& 0o777)))
  | none => t.makeDir names

/-- The tree with what a member that is no link has at its names. -/
def put (t : Tree) (m : Member) (names : List Name) : Tree :=
  match m.kind with
  | .dir => t.putDir m names
  | .sparse | .file =>
    if m.plain && m.path.getLast? == some Path.slash then t.putDir m names
    else Function.update t names (some (.file m.content))
  | .link | .hardLink | .longName | .longTarget | .attributes | .globalAttributes => t

/-- The tree with a member unpacked. -/
def add (t : Tree) (m : Member) : Tree :=
  match namesBelow? (components m.path) with
  | none => t
  | some names => if names = [] then t else (t.makeMissing [] names.dropLast).put m names

/-- What an archive with these members leaves in an empty directory. -/
def ofMembers (members : List Member) : Tree :=
  (ordered members).foldl add fun _ => none

end Tree

/-- The members of an archive of files and directories. -/
def Unlinked (members : List Member) : Prop :=
  ∀ m ∈ members, m.kind ≠ .link ∧ m.kind ≠ .hardLink

section

variable {d₀ d : Disk} {root : Place} {t : Tree} {above names : List Name} {name : Name}
  {node : Node} {spot : Spot}

/-! ### The paths of names -/

/-- Names that are looked up in directories, none with a slash in it. -/
abbrev Clean (names : List Name) : Prop :=
  ∀ name ∈ names, Named name ∧ slash ∉ name

theorem join_path_of_clean (hroot : Clean root) (hs : slash ∉ name) :
    join root.path name = Place.path (root ++ [name]) := by
  refine join_path (fun n hn => ⟨?_, (hroot n hn).2⟩) hs
  rintro rfl
  exact (hroot [] hn).1.ne_blank (.inl rfl)

theorem foldl_join_path (hroot : Clean root) (hnames : Clean names) :
    names.foldl join root.path = Place.path (root ++ names) := by
  induction names generalizing root with
  | nil => rw [List.append_nil, List.foldl_nil]
  | cons name names ih =>
    obtain ⟨hname, hrest⟩ := List.forall_mem_cons.mp hnames
    have hnext : Clean (root ++ [name]) :=
      List.forall_mem_append.mpr ⟨hroot, List.forall_mem_singleton.mpr hname⟩
    rw [List.foldl_cons, join_path_of_clean hroot hname.2, ih hnext hrest, List.append_assoc,
      List.singleton_append]

/-! ### Trees on a disk -/

/-- Since the disk was `d₀` an archive has been unpacked to a directory, and what lies below that
directory is the tree. No links are in it. -/
structure Shows (d₀ : Disk) (root : Place) (t : Tree) (d : Disk) : Prop where
  changes : Changes (Unpacks root) d₀ d
  find?_eq : ∀ names, names ≠ [] → d.find? (root ++ names) = t names
  linkless : ∀ names target, t names ≠ some (.link target)

theorem Shows.wellFormed (h : Shows d₀ root t d) (hd₀ : d₀.WellFormed) : d.WellFormed :=
  h.changes.wellFormed hd₀

/-- One place below the directory changes, and nothing else. -/
theorem Shows.update {d' : Disk} {there : Option Node} (h : Shows d₀ root t d)
    (hchanges : Changes (Unpacks root) d₀ d')
    (hfind : ∀ other, d'.find? other = if other = root ++ names then there else d.find? other)
    (hlink : ∀ target, there ≠ some (.link target)) :
    Shows d₀ root (Function.update t names there) d' := by
  refine ⟨hchanges, fun other hother => ?_, fun other target => ?_⟩
  · rw [hfind, Function.update_apply, h.find?_eq other hother]
    simp only [List.append_cancel_left_eq]
  · rw [Function.update_apply]
    split
    · exact hlink target
    · exact h.linkless other target

theorem Shows.put (h : Shows d₀ root t d) (hne : names ≠ [])
    (hchanges : Changes (Unpacks root) d₀ (d.put (root ++ names) node))
    (hlink : ∀ target, node ≠ .link target) :
    Shows d₀ root (Function.update t names (some node)) (d.put (root ++ names) node) := by
  refine h.update hchanges (fun other => ?_) (by simpa using hlink)
  rw [find?_put]
  simp [hne]

theorem Shows.erase (h : Shows d₀ root t d) (hne : names ≠ [])
    (hchanges : Changes (Unpacks root) d₀ (d.erase (root ++ names))) :
    Shows d₀ root (Function.update t names none) (d.erase (root ++ names)) := by
  refine h.update hchanges (fun other => ?_) (by simp)
  rw [find?_erase]
  simp [hne]

/-- Where something is, no directory is made, and it is no link. -/
theorem Shows.makeDir_of_there (h : Shows d₀ root t d)
    (hfind : d.find? (root ++ above ++ [name]) = some node) :
    Shows d₀ root (t.makeDir (above ++ [name])) d ∧ d.Firm (root ++ above ++ [name]) := by
  rw [List.append_assoc] at hfind ⊢
  have hnode : t (above ++ [name]) = some node := (h.find?_eq _ (by simp)).symm.trans hfind
  refine ⟨?_, node, hfind, ?_⟩
  · rw [Tree.makeDir, if_neg (by simp [hnode])]
    exact h
  · rintro target rfl
    exact h.linkless _ target hnode

/-- Below the directory something new is put. -/
theorem Shows.put_vacant (h : Shows d₀ root t d) (hd₀ : d₀.WellFormed) {follow : Bool}
    {path : Path} (hl : d.locate follow path = .ok spot)
    (hspot : spot.place = root ++ above ++ [name]) (hnone : d.find? spot.place = none)
    (hlink : ∀ target, node ≠ .link target) :
    Shows d₀ root (Function.update t (above ++ [name]) (some node)) (d.put spot.place node) := by
  have hput : Changes (Unpacks root) d₀ (d.put spot.place node) := by
    refine h.changes.put_vacant (h.wellFormed hd₀) hl hnone ?_
    rw [hspot]
    exact unpacks_below (List.prefix_append ..) _
  rw [hspot, List.append_assoc] at hput ⊢
  exact h.put (by simp) hput hlink

/-- A directory is made where nothing was. -/
theorem Shows.makeDir_of_vacant (h : Shows d₀ root t d) (hd₀ : d₀.WellFormed) {follow : Bool}
    {path : Path} (hl : d.locate follow path = .ok spot)
    (hspot : spot.place = root ++ above ++ [name]) (hnone : d.find? spot.place = none) :
    Shows d₀ root (t.makeDir (above ++ [name])) (d.put spot.place (.dir plainMode)) := by
  have hvacant : t (above ++ [name]) = none := by
    rw [← h.find?_eq _ (by simp), ← List.append_assoc, ← hspot, hnone]
  rw [Tree.makeDir, if_pos hvacant]
  exact h.put_vacant hd₀ hl hspot hnone (by simp)

/-- The path of something in the tree leads to it. -/
theorem Shows.target (h : Shows d₀ root t d) (hd₀ : d₀.WellFormed)
    (hfirm : d.Firm (root ++ above)) :
    Target root (Place.path (root ++ above)) (root ++ above) d :=
  ⟨leads_path (h.wellFormed hd₀) hfirm, List.prefix_append ..⟩

/-! ### One member -/

variable (hd₀ : d₀.WellFormed) (hroot : Clean root)

include hd₀ in
/-- A directory that is missing is made where the tree has nothing. -/
theorem ensures_makeDirs_tree (hn : Named name) (hs : slash ∉ name) :
    Ensures (fun d => Shows d₀ root t d ∧ d.Firm (root ++ above))
      (onDisk (makeDirs (join (Place.path (root ++ above)) name)))
      (fun _ d => Shows d₀ root (t.makeDir (above ++ [name])) d ∧
        d.Firm (root ++ above ++ [name])) (fun _ _ => True) := by
  have hne : join (Place.path (root ++ above)) name ≠ [] :=
    join_ne_nil (path_ne_nil _) (isAbsolute_of_notMem hs)
  refine ensures_adapt (ensures_makeDirs hne ?_ ?_ ?_ fun _ _ _ => trivial)
  · rintro d spot ⟨hd, hfirm⟩ hl hnone
    have hspot := (hd.target hd₀ hfirm).reaches hn hs spot hl
    refine ⟨hd.makeDir_of_vacant hd₀ hl hspot hnone, ?_⟩
    rw [← hspot]
    exact ⟨_, find?_put_self (ne_nil_of_vacant hnone), by simp⟩
  · rintro d ⟨hd, hfirm⟩ hisDir
    obtain ⟨place, hl, mode, hfind⟩ := exists_of_isDir hisDir
    have hlink : ∀ target, d.find? (root ++ above ++ [name]) ≠ some (.link target) := by
      rw [List.append_assoc, hd.find?_eq _ (by simp)]
      exact hd.linkless _
    have hplace : place = root ++ above ++ [name] :=
      ((hd.target hd₀ hfirm).leads.names_join hn hs hlink).place_eq hl
    exact hd.makeDir_of_there (hplace ▸ hfind)
  · rintro d ⟨hd, hfirm⟩
    exact (hd.target hd₀ hfirm).not_missing hn hs

include hd₀ hroot in
/-- The directories that are missing are made where the tree has nothing. -/
theorem ensures_makeMissing_tree (habove : Clean above) (hnames : Clean names) :
    Ensures (fun d => Shows d₀ root t d ∧ d.Firm (root ++ above))
      (makeMissing root (Place.path (root ++ above)) names)
      (fun _ d => Shows d₀ root (t.makeMissing above names) d ∧ d.Firm (root ++ above ++ names))
      (fun _ _ => True) := by
  induction names generalizing t above with
  | nil =>
    refine ensures_pure fun d hd => ?_
    rwa [List.append_nil]
  | cons name names ih =>
    obtain ⟨⟨hn, hs⟩, hrest⟩ := List.forall_mem_cons.mp hnames
    have hpath : join (Place.path (root ++ above)) name = Place.path (root ++ above ++ [name]) :=
      join_path_of_clean (List.forall_mem_append.mpr ⟨hroot, habove⟩) hs
    have hnext : Clean (above ++ [name]) :=
      List.forall_mem_append.mpr ⟨habove, List.forall_mem_singleton.mpr ⟨hn, hs⟩⟩
    -- Where the next directory is settled, the rest goes on from there.
    have hgo := @ih (t.makeDir (above ++ [name])) (above ++ [name]) hnext hrest
    rw [← List.append_assoc, ← hpath, List.append_assoc _ [name], List.singleton_append] at hgo
    refine ensures_makeMissing_cons
      ((ensures_makeDirs_tree hd₀ hn hs).of_pre fun d hd => hd.1) ?_ (fun _ _ _ => trivial) hgo
    rintro d found ⟨hd, hfirm⟩ hstatus
    exact hd.makeDir_of_there
      (((hd.target hd₀ hfirm).leads.status_name hn hs).2 found hstatus).2

include hd₀ in
/-- A directory is made, or the tree has it. -/
theorem ensures_makeDir_tree (hn : Named name) (hs : slash ∉ name) :
    Ensures (fun d => Shows d₀ root t d ∧ d.Firm (root ++ above))
      (makeDir (join (Place.path (root ++ above)) name))
      (fun _ d => Shows d₀ root (t.makeDir (above ++ [name])) d ∧
        d.HasDir (root ++ above ++ [name]))
      (fun _ _ => True) := by
  refine ensures_makeDir_of ?_ ?_ fun _ _ _ => trivial
  · rintro d spot ⟨hd, hfirm⟩ hl hnone
    have hspot := (hd.target hd₀ hfirm).reaches hn hs spot hl
    refine ⟨hd.makeDir_of_vacant hd₀ hl hspot hnone, plainMode, ?_⟩
    rw [← hspot]
    exact find?_put_self (ne_nil_of_vacant hnone)
  · rintro d there mode ⟨hd, hfirm⟩ hfound
    obtain ⟨-, hfind⟩ := ((hd.target hd₀ hfirm).leads.status_name hn hs).2 _ hfound
    exact ⟨(hd.makeDir_of_there hfind).1, mode, hfind⟩

include hd₀ hroot in
/-- The directory of a member is made, and gets the permissions that the member tells. -/
theorem ensures_putDir (m : Member) (habove : Clean above) (hn : Named name) (hs : slash ∉ name) :
    Ensures (fun d => Shows d₀ root t d ∧ d.Firm (root ++ above))
      (do
        makeDir (join (Place.path (root ++ above)) name)
        setMode m (join (Place.path (root ++ above)) name))
      (fun _ => Shows d₀ root (t.putDir m (above ++ [name]))) (fun _ _ => True) := by
  have hpath : join (Place.path (root ++ above)) name = Place.path (root ++ above ++ [name]) :=
    join_path_of_clean (List.forall_mem_append.mpr ⟨hroot, habove⟩) hs
  refine ensures_bind (ensures_makeDir_tree hd₀ hn hs) fun _ => ?_
  unfold setMode Tree.putDir
  cases m.mode with
  | none => exact ensures_pure fun d hd => hd.1
  | some mode =>
    dsimp only
    rw [hpath]
    refine ensures_adapt (Disk.ensures_setMode ?_ ?_ fun _ _ _ => trivial)
    · rintro d there old ⟨hd, hdir⟩ hl hold
      have hthere : there = root ++ above ++ [name] :=
        (names_path (hd.wellFormed hd₀) hdir.firm).place_eq hl
      have hput : Changes (Unpacks root) d₀ (d.put there (.dir (mode &&& 0o777))) := by
        refine hd.changes.put_mode hold ?_
        rw [hthere]
        exact unpacks_below (List.prefix_append ..) _
      have hmade : Function.update (t.makeDir (above ++ [name])) (above ++ [name])
          (some (.dir (mode &&& 0o777))) =
          Function.update t (above ++ [name]) (some (.dir (mode &&& 0o777))) := by
        rw [Tree.makeDir]
        split
        · exact Function.update_idem ..
        · rfl
      rw [hthere, List.append_assoc] at hput ⊢
      rw [← hmade]
      exact hd.put (by simp) hput (by simp)
    · rintro d there node ⟨hd, hdir⟩ hl hfind hno
      have hthere : there = root ++ above ++ [name] :=
        (names_path (hd.wellFormed hd₀) hdir.firm).place_eq hl
      obtain ⟨old, hold⟩ := hdir
      rw [hthere, hold] at hfind
      exact absurd (Option.some.inj hfind).symm (hno old)

include hd₀ in
/-- The file of a member takes the place of what is no directory. -/
theorem ensures_putFile (content : Bytes) (hn : Named name) (hs : slash ∉ name) :
    Ensures (fun d => Shows d₀ root t d ∧ d.Firm (root ++ above))
      (do
        let there ← onDisk
          (replacing (join (Place.path (root ++ above)) name)
            (createNew (join (Place.path (root ++ above)) name)))
        onDisk (Disk.write there content))
      (fun _ => Shows d₀ root (Function.update t (above ++ [name]) (some (.file content))))
      (fun _ _ => True) := by
  -- Whatever the tree has at the names of the member, it is about to be replaced.
  have hcreate : Ensures
      (fun d => (∃ there, Shows d₀ root (Function.update t (above ++ [name]) there) d) ∧
        Reaches (join (Place.path (root ++ above)) name) (root ++ above ++ [name]) d)
      (createNew (join (Place.path (root ++ above)) name))
      (fun there d => there = root ++ above ++ [name] ∧
        Shows d₀ root (Function.update t (above ++ [name]) (some (.file []))) d)
      (fun _ d => (∃ there, Shows d₀ root (Function.update t (above ++ [name]) there) d) ∧
        Reaches (join (Place.path (root ++ above)) name) (root ++ above ++ [name]) d) := by
    refine ensures_createNew ?_ fun d e hd => hd
    rintro d spot ⟨⟨there, hd⟩, hreaches⟩ hl hnone
    have hspot := hreaches spot hl
    have hput : Shows d₀ root (Function.update (Function.update t (above ++ [name]) there)
        (above ++ [name]) (some (.file []))) (d.put spot.place (.file [])) :=
      hd.put_vacant hd₀ hl hspot hnone (by simp)
    rw [Function.update_idem] at hput
    exact ⟨hspot, hput⟩
  refine ensures_bind (ensures_adapt ((ensures_replacing hcreate ?_).weaken ?_
    (fun _ _ hq => hq) fun _ _ _ => trivial)) fun there => ?_
  · rintro d node ⟨there, hd⟩ hfind hno
    refine ⟨none, ?_⟩
    have herase := hd.changes.erase hfind hno (unpacks_below (List.prefix_append ..) none)
    rw [List.append_assoc] at herase ⊢
    have hshows := hd.erase (by simp) herase
    rwa [Function.update_idem] at hshows
  · rintro d ⟨hd, hfirm⟩
    refine ⟨⟨t (above ++ [name]), ?_⟩, (hd.target hd₀ hfirm).reaches hn hs⟩
    rwa [Function.update_eq_self]
  · refine ensures_adapt (ensures_putAt ?_)
    rintro d ⟨rfl, hd⟩
    have hfile : d.find? (root ++ above ++ [name]) = some (.file []) := by
      rw [List.append_assoc, hd.find?_eq _ (by simp), Function.update_self]
    have hput : Changes (Unpacks root) d₀ (d.put (root ++ above ++ [name]) (.file content)) :=
      hd.changes.put_content hfile (unpacks_below (List.prefix_append ..) _)
    rw [List.append_assoc] at hput ⊢
    have hshows := hd.put (by simp) hput (by simp)
    rwa [Function.update_idem] at hshows

include hd₀ hroot in
/-- **A member that is no link adds its own directory or file.** -/
theorem ensures_unpackTo_tree {m : Member} (hlink : m.kind ≠ .link) (hhard : m.kind ≠ .hardLink)
    (habove : Clean above) (hn : Named name) (hs : slash ∉ name) :
    Ensures (fun d => Shows d₀ root t d ∧ d.Firm (root ++ above))
      (unpackTo root m (join (Place.path (root ++ above)) name))
      (fun _ => Shows d₀ root (t.put m (above ++ [name]))) (fun _ _ => True) := by
  unfold unpackTo Tree.put
  dsimp only
  cases hkind : m.kind with
  | dir => exact ensures_putDir hd₀ hroot m habove hn hs
  | link => exact absurd hkind hlink
  | hardLink => exact absurd hkind hhard
  | longName => exact ensures_pure fun d hd => hd.1
  | longTarget => exact ensures_pure fun d hd => hd.1
  | attributes => exact ensures_pure fun d hd => hd.1
  | globalAttributes => exact ensures_pure fun d hd => hd.1
  | sparse =>
    dsimp only
    split
    · exact ensures_putDir hd₀ hroot m habove hn hs
    · exact ensures_putFile hd₀ m.content hn hs
  | file =>
    dsimp only
    split
    · exact ensures_putDir hd₀ hroot m habove hn hs
    · exact ensures_putFile hd₀ m.content hn hs

include hd₀ hroot in
theorem ensures_unpackMember_tree (hdir : d₀.HasDir root) {m : Member} (hlink : m.kind ≠ .link)
    (hhard : m.kind ≠ .hardLink) :
    Ensures (Shows d₀ root t) (unpackMember root m) (fun _ => Shows d₀ root (t.add m))
      (fun _ _ => True) := by
  unfold unpackMember Tree.add
  cases hnames : namesBelow? (components m.path) with
  | none => exact ensures_pure fun d hd => hd
  | some names =>
    dsimp only
    have hclean : Clean names := fun name hname =>
      named_of_mem_components (named_of_namesBelow? hnames hname)
    cases names using List.reverseRecOn with
    | nil => exact ensures_pure fun d hd => hd
    | append_singleton above last _ =>
      obtain ⟨habove, hlast⟩ := List.forall_mem_append.mp hclean
      obtain ⟨hn, hs⟩ := hlast last List.mem_cons_self
      rw [List.getLast?_concat, if_neg (by simp), List.dropLast_concat]
      dsimp only
      rw [foldl_join_path hroot habove]
      have hmissing : Ensures (fun d => Shows d₀ root t d ∧ d.Firm (root ++ []))
          (makeMissing root (Place.path (root ++ [])) above)
          (fun _ d => Shows d₀ root (t.makeMissing [] above) d ∧ d.Firm (root ++ [] ++ above))
          (fun _ _ => True) :=
        ensures_makeMissing_tree hd₀ hroot (List.forall_mem_nil _) habove
      rw [List.append_nil] at hmissing
      refine ensures_bind (hmissing.of_pre fun d hd => ?_) fun _ => ?_
      · exact ⟨hd, (hd.changes.hasDir hdir).firm⟩
      · refine ensures_bind (ensures_confine fun _ _ _ => trivial) fun _ => ?_
        refine (ensures_unpackTo_tree hd₀ hroot hlink hhard habove hn hs).of_pre ?_
        rintro d ⟨hd, -⟩
        exact hd

end

/-! ### A whole archive -/

theorem mem_of_mem_ordered {members : List Member} {m : Member} (h : m ∈ ordered members) :
    m ∈ members := by
  rcases List.mem_append.mp h with h | h
  · exact (List.mem_filter.mp h).1
  · exact (List.mem_filter.mp (List.mem_mergeSort.mp h)).1

/-- **What an archive without links leaves in an empty directory is told from its members.** -/
theorem ensures_unpack_tree {d₀ : Disk} {root : Place} {archive : Bytes} {directory : Path}
    {members : List Member} (hd₀ : d₀.WellFormed) (hdir : d₀.HasDir root)
    (hempty : ∀ names, names ≠ [] → d₀.find? (root ++ names) = none)
    (hdirectory : ∀ place, d₀.locate true directory = .ok (.reached place) → place = root)
    (hmembers : Tar.members archive = .ok members) (hlinks : Unlinked members) :
    Ensures (· = d₀) (unpack archive directory)
      (fun _ => Shows d₀ root (Tree.ofMembers members)) (fun _ _ => True) := by
  have hroot : Clean root := by
    obtain ⟨mode, hfind⟩ := hdir
    exact hd₀.named hfind
  refine ensures_unpack_of hdirectory (fun found hfound => ?_) fun _ => trivial
  rw [hmembers] at hfound
  cases hfound
  have hfold : Ensures (Shows d₀ root fun _ => none)
      ((ordered members).forM (unpackMember root))
      (fun _ => Shows d₀ root (Tree.ofMembers members)) (fun _ _ => True) := by
    refine ensures_forM_foldl fun t m hm => ?_
    obtain ⟨hlink, hhard⟩ := hlinks m (mem_of_mem_ordered hm)
    exact ensures_unpackMember_tree hd₀ hroot hdir hlink hhard
  refine hfold.of_pre ?_
  rintro d rfl
  exact ⟨.refl, hempty, fun names target => by simp⟩

end ImageScoring.Tar
