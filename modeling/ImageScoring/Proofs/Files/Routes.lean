import ImageScoring.Proofs.Files.Resolution

/-!
# Routes

Names that meet no link lead where they lead without the disk (`descend_clear`,
`Leads.place_below`), and they go on leading there while the directories on their way stay
(`Leads.below`). One name more leads one level down (`Leads.locate_name`). The path of a place leads
to it (`leads_path`). What a path leads to stays the same while nothing that was there goes away
(`Leads.keeps`), and what is removed leaves its place to the path that led to it
(`place_of_locate_erase`).
-/

namespace ImageScoring.Disk

open ImageScoring.Path

variable {d d' : Disk} {follow : Bool} {here place root : Place} {name : Name} {names : List Name}
  {base path : Path} {links : Nat} {spot : Spot}

/-! ### Names that meet no link -/

/-- No link lies where something is looked up. -/
def Clear (d : Disk) (here : Place) (names : List Name) : Prop :=
  ∀ place ∈ passes here names, ∀ target, d.find? place ≠ some (.link target)

theorem stepsOf_eq_nil_of_isEmpty (h : names.all List.isEmpty = true) : stepsOf names = [] := by
  refine List.filter_eq_nil_iff.mpr fun name hname => ?_
  simp [List.isEmpty_iff.mp (List.all_eq_true.mp h name hname)]

/-- **Where no link is met, names lead where they lead without the disk.** -/
theorem descend_clear (follow : Bool) (h : d.Clear here (stepsOf names)) :
    (∃ fault, d.descend follow here names = .stopped fault) ∨
      ∃ spot, d.descend follow here names = .ended spot ∧
        spot.place = walk here (stepsOf names) := by
  induction names generalizing here with
  | nil => exact .inr ⟨.reached here, rfl, rfl⟩
  | cons name rest ih =>
    cases d.meets here name with
    | blank hblank =>
      rw [stepsOf_cons_of_blank hblank] at h ⊢
      rw [descend_blank hblank]
      exact ih h
    | up hup =>
      subst hup
      rw [stepsOf_cons (by decide)] at h ⊢
      rw [descend_up, walk, if_pos rfl]
      rw [Clear, passes, if_pos rfl] at h
      exact ih h
    | tooLong hn hl => exact .inl ⟨_, descend_tooLong hn hl⟩
    | nothing hn hl hnone =>
      rw [descend_nothing hn hl hnone]
      split
      · next hempty =>
        refine .inr ⟨_, rfl, ?_⟩
        rw [stepsOf_cons hn.ne_blank, stepsOf_eq_nil_of_isEmpty hempty, walk, if_neg hn.ne_dotDot,
          walk]
        rfl
      · exact .inl ⟨_, rfl⟩
    | dir hn hl hdir =>
      rw [stepsOf_cons hn.ne_blank] at h ⊢
      rw [descend_dir hn hl hdir, walk, if_neg hn.ne_dotDot]
      rw [Clear, passes, if_neg hn.ne_dotDot] at h
      exact ih (List.forall_mem_cons.mp h).2
    | file hn hl hfile =>
      rw [descend_file hn hl hfile]
      split
      · next hempty =>
        refine .inr ⟨_, rfl, ?_⟩
        rw [List.isEmpty_iff.mp hempty, stepsOf_cons hn.ne_blank, walk, if_neg hn.ne_dotDot]
        rfl
      · exact .inl ⟨_, rfl⟩
    | link hn hl hlink =>
      rw [stepsOf_cons hn.ne_blank, Clear, passes, if_neg hn.ne_dotDot] at h
      exact absurd hlink ((List.forall_mem_cons.mp h).1 _)

theorem place_of_resolve (hc : d.Clear here (stepsOf names))
    (h : d.resolve follow links here names = .ok spot) :
    spot.place = walk here (stepsOf names) := by
  rcases descend_clear follow hc with ⟨fault, hstop⟩ | ⟨spot', hend, hplace⟩
  · rw [resolve, hstop] at h
    cases h
  · rw [resolve_of_ended hend] at h
    cases h
    exact hplace

/-- A directory that is reached past no link has directories above it. -/
theorem hasDir_of_mem_passes (hc : d.Clear here (stepsOf names))
    (h : d.descend follow here names = .ended (.reached place)) (hdir : d.HasDir place) :
    ∀ pass ∈ passes here (stepsOf names), d.HasDir pass := by
  induction names generalizing here with
  | nil =>
    intro pass hpass
    cases hpass
  | cons name rest ih =>
    cases d.meets here name with
    | blank hblank =>
      rw [stepsOf_cons_of_blank hblank] at hc ⊢
      rw [descend_blank hblank] at h
      exact ih hc h
    | up hup =>
      subst hup
      rw [stepsOf_cons (by decide), passes, if_pos rfl]
      rw [stepsOf_cons (by decide), Clear, passes, if_pos rfl] at hc
      rw [descend_up] at h
      exact ih hc h
    | tooLong hn hl =>
      rw [descend_tooLong hn hl] at h
      cases h
    | nothing hn hl hnone =>
      rw [descend_nothing hn hl hnone] at h
      split at h <;> cases h
    | @dir mode hn hl hfind =>
      rw [stepsOf_cons hn.ne_blank, passes, if_neg hn.ne_dotDot]
      rw [stepsOf_cons hn.ne_blank, Clear, passes, if_neg hn.ne_dotDot] at hc
      rw [descend_dir hn hl hfind] at h
      exact List.forall_mem_cons.mpr ⟨⟨mode, hfind⟩, ih (List.forall_mem_cons.mp hc).2 h⟩
    | file hn hl hfile =>
      rw [descend_file hn hl hfile] at h
      split at h
      · cases h
        obtain ⟨mode, hdir⟩ := hdir
        rw [hfile] at hdir
        cases hdir
      · cases h
    | link hn hl hlink =>
      rw [stepsOf_cons hn.ne_blank, Clear, passes, if_neg hn.ne_dotDot] at hc
      exact absurd hlink ((List.forall_mem_cons.mp hc).1 _)

/-- Where only directories are met, the way down is open. -/
theorem descend_of_dirs (hd : d.WellFormed)
    (h : ∀ pass ∈ passes here (stepsOf names), d.HasDir pass) :
    d.descend follow here names = .ended (.reached (walk here (stepsOf names))) := by
  induction names generalizing here with
  | nil => rfl
  | cons name rest ih =>
    by_cases hblank : name = [] ∨ name = dot
    · rw [stepsOf_cons_of_blank hblank] at h ⊢
      rw [descend_blank hblank]
      exact ih h
    rw [stepsOf_cons hblank] at h ⊢
    by_cases hup : name = dotDot
    · subst hup
      rw [passes, if_pos rfl] at h
      rw [descend_up, walk, if_pos rfl]
      exact ih h
    · rw [passes, if_neg hup] at h
      obtain ⟨⟨mode, hdir⟩, hrest⟩ := List.forall_mem_cons.mp h
      have hl := (hd.proper hdir name (by simp)).length_le
      rw [descend_dir ⟨hblank, hup⟩ (Nat.not_lt.mpr hl) hdir, walk, if_neg hup]
      exact ih hrest

/-- Names that lead past directories alone lead to one. -/
theorem hasDir_walk (hd : d.WellFormed) (hhere : d.HasDir here)
    (h : ∀ pass ∈ passes here names, d.HasDir pass) : d.HasDir (walk here names) := by
  induction names generalizing here with
  | nil => exact hhere
  | cons name rest ih =>
    rw [passes] at h
    rw [walk]
    split at h
    · next hup =>
      rw [if_pos hup]
      exact ih (hd.hasDir_dropLast hhere) h
    · next hup =>
      rw [if_neg hup]
      obtain ⟨hdir, hrest⟩ := List.forall_mem_cons.mp h
      exact ih hdir hrest

/-! ### Below a place that a path leads to -/

/-- Past no link, what is below a place that a path leads to is told from that place. -/
theorem Leads.place_below (h : d.Leads base root) (hb : Below base path names)
    (hc : d.Clear root names) (hl : d.locate follow path = .ok spot) :
    spot.place = walk root names := by
  obtain ⟨-, hr⟩ := resolve_of_locate hl
  obtain ⟨raw, rfl, ⟨links, heq⟩ | ⟨heq, -⟩⟩ := h.resolve_below hb follow
  · rw [heq] at hr
    exact place_of_resolve hc hr
  · rw [heq] at hr
    cases hr

/-- Past directories alone, the way is open. -/
theorem Leads.below (h : d.Leads base root) (hd : d.WellFormed) (hroot : d.HasDir root)
    (hb : Below base path names) (hdirs : ∀ pass ∈ passes root names, d.HasDir pass) :
    d.Leads path (walk root names) := by
  refine ⟨(hb.split h.ne_nil).1, ?_⟩
  obtain ⟨raw, rfl, ⟨links, heq⟩ | ⟨-, hno⟩⟩ := h.resolve_below hb true
  · rw [heq]
    exact resolve_of_ended (descend_of_dirs hd hdirs)
  · exact absurd hroot hno

/-- The path of a directory with a name behind it leads to the directory of that name. -/
theorem Leads.down (h : d.Leads base place) (hd : d.WellFormed) (hn : Named name)
    (hs : slash ∉ name) (hdir : d.HasDir (place ++ [name])) :
    d.Leads (join base name) (place ++ [name]) := by
  have hplace : d.HasDir place := by
    obtain ⟨mode, hfind⟩ := hdir
    exact hd.parent hfind
  have hbelow := h.below hd hplace (.one (isAbsolute_of_notMem hs))
  rw [steps_of_named hn hs, walk, if_neg hn.ne_dotDot, walk, passes, if_neg hn.ne_dotDot,
    passes] at hbelow
  exact hbelow (List.forall_mem_singleton.mpr hdir)

/-- A directory below that is reached past no link has directories above it. -/
theorem Leads.hasDir_passes (h : d.Leads base root) (hb : Below base path names)
    (hc : d.Clear root names) (hl : d.locate follow path = .ok (.reached place))
    (hdir : d.HasDir place) : ∀ pass ∈ passes root names, d.HasDir pass := by
  obtain ⟨-, hr⟩ := resolve_of_locate hl
  obtain ⟨raw, rfl, ⟨links, heq⟩ | ⟨heq, -⟩⟩ := h.resolve_below hb follow
  · rw [heq] at hr
    rcases descend_clear follow hc with ⟨fault, hstop⟩ | ⟨spot', hend, -⟩
    · rw [resolve, hstop] at hr
      cases hr
    · rw [resolve_of_ended hend] at hr
      cases hr
      exact hasDir_of_mem_passes hc hend hdir
  · rw [heq] at hr
    cases hr

/-- **One name more leads one level down**, or to a fault, but never for want of what is above. -/
theorem Leads.locate_name (h : d.Leads base place) (follow : Bool) (hn : Named name)
    (hs : slash ∉ name)
    (hlink : follow = true → ∀ target, d.find? (place ++ [name]) ≠ some (.link target)) :
    (∃ spot, d.locate follow (join base name) = .ok spot ∧ spot.place = place ++ [name]) ∨
      ∃ fault, d.locate follow (join base name) = .error fault ∧ fault ≠ .missing := by
  have hrel := isAbsolute_of_notMem hs
  have hnames : splitFrom [] name = [name] := splitFrom_of_notMem hs
  have hdescend : d.descend follow place [name] = .stopped .nameTooLong ∨
      ∃ spot, d.descend follow place [name] = .ended spot ∧ spot.place = place ++ [name] := by
    cases d.meets place name with
    | blank hblank => exact absurd hblank hn.ne_blank
    | up hup => exact absurd hup hn.ne_dotDot
    | tooLong hn hl => exact .inl (descend_tooLong hn hl)
    | nothing hn hl hnone => exact .inr ⟨_, descend_nothing hn hl hnone, rfl⟩
    | dir hn hl hdir => exact .inr ⟨_, descend_dir hn hl hdir, rfl⟩
    | file hn hl hfile => exact .inr ⟨_, descend_file hn hl hfile, rfl⟩
    | link hn hl hfind =>
      cases follow with
      | false => exact .inr ⟨_, descend_link hn hl hfind, rfl⟩
      | true => exact absurd hfind (hlink rfl _)
  unfold locate
  split
  · exact .inr ⟨_, rfl, by simp⟩
  · split
    · next hnil => exact absurd hnil (join_ne_nil h.ne_nil hrel)
    · split
      · exact .inr ⟨_, rfl, by simp⟩
      · rcases h.resolve_join hrel follow with ⟨links, heq⟩ | ⟨heq, -⟩
        · rw [heq, hnames]
          rcases hdescend with hstop | ⟨spot, hend, hplace⟩
          · exact .inr ⟨.nameTooLong, by rw [resolve, hstop], by simp⟩
          · exact .inl ⟨spot, resolve_of_ended hend, hplace⟩
        · exact .inr ⟨_, heq, by simp⟩

/-- A path that is not refused for its octets alone. -/
structure Sound (path : Path) : Prop where
  zero_notMem : 0 ∉ path
  length_lt : path.length < pathLimit

theorem sound_of_locate (h : d.locate follow path = .ok spot) : Sound path := by
  unfold locate at h
  split at h
  · cases h
  · next hzero =>
    split at h
    · cases h
    · split at h
      · cases h
      · next hlength => exact ⟨hzero, Nat.not_le.mp hlength⟩

theorem Leads.locate (h : d.Leads path place) (hs : Sound path) :
    d.locate true path = .ok (.reached place) := by
  rw [Disk.locate, if_neg hs.zero_notMem, if_neg h.ne_nil,
    if_neg (Nat.not_le.mpr hs.length_lt)]
  exact h.reached

/-- One name more leads to a vacant place, where nothing is in the directory. -/
theorem Leads.locate_vacant (h : d.Leads base place) (hdir : d.HasDir place) (hname : name.Proper)
    (hnone : d.find? (place ++ [name]) = none) (hs : Sound (join base name)) :
    d.locate false (join base name) = .ok (.vacant place name false) := by
  have hrel := isAbsolute_of_notMem hname.slash_notMem
  have hn : Named name := ⟨not_or.mpr ⟨hname.ne_nil, hname.ne_dot⟩, hname.ne_dotDot⟩
  rw [Disk.locate, if_neg hs.zero_notMem, if_neg (join_ne_nil h.ne_nil hrel),
    if_neg (Nat.not_le.mpr hs.length_lt)]
  rcases h.resolve_join hrel false with ⟨links, heq⟩ | ⟨-, hno⟩
  · rw [heq, splitFrom_of_notMem hname.slash_notMem]
    exact resolve_of_ended (descend_nothing hn (Nat.not_lt.mpr hname.length_le) hnone)
  · exact absurd hdir hno

/-! ### The path of a place -/

theorem WellFormed.named (hd : d.WellFormed) {node : Node} (h : d.find? place = some node) :
    ∀ name ∈ place, Named name ∧ slash ∉ name := by
  intro name hname
  have hp := hd.proper h name hname
  exact ⟨⟨not_or.mpr ⟨hp.ne_nil, hp.ne_dot⟩, hp.ne_dotDot⟩, hp.slash_notMem⟩

/-- Down to a directory there are only directories. -/
theorem WellFormed.hasDir_passes (hd : d.WellFormed) (hdir : d.HasDir place) :
    ∀ pass ∈ passes [] place, d.HasDir pass := by
  obtain ⟨mode, hfind⟩ := hdir
  intro pass hpass
  obtain ⟨above, -, hwithin, heq⟩ :=
    exists_prefix_of_mem_passes (fun n hn => (hd.named hfind n hn).1) hpass
  rw [heq, List.nil_append]
  by_cases hne : above = place
  · subst hne
    exact ⟨mode, hfind⟩
  · exact hd.hasDir_of_prefix hfind hwithin hne

/-- The names of a directory lead to it. -/
theorem descend_place (follow : Bool) (hd : d.WellFormed) (hdir : d.HasDir place)
    (hnames : stepsOf names = place) : d.descend follow [] names = .ended (.reached place) := by
  have hnamed : ∀ name ∈ place, Named name := by
    obtain ⟨mode, hfind⟩ := hdir
    exact fun n hn => (hd.named hfind n hn).1
  have hdirs := hd.hasDir_passes hdir
  rw [← hnames] at hdirs
  rw [descend_of_dirs hd hdirs, hnames, walk_of_named hnamed, List.nil_append]

/-- The path of something that is no link is followed to it, past no link. -/
theorem resolve_path (hd : d.WellFormed) {node : Node} (h : d.find? place = some node)
    (hnode : ∀ target, node ≠ .link target) :
    d.resolve follow links [] (splitFrom [] place.path) = .ok (.reached place) := by
  have hnamed := hd.named h
  refine resolve_of_ended ?_
  cases node with
  | link target => exact absurd rfl (hnode target)
  | dir mode => exact descend_place follow hd ⟨mode, h⟩ (steps_path hnamed)
  | file content =>
    cases place using List.reverseRecOn with
    | nil =>
      rw [find?_root] at h
      cases h
    | append_singleton above name _ =>
      -- The names of the directory come first, and then that of the file.
      obtain ⟨hname, -⟩ := hnamed name (by simp)
      have hl := (hd.proper h name (by simp)).length_le
      have hnames : stepsOf ([] :: above) = above := by
        rw [stepsOf_cons_of_blank (.inl rfl)]
        exact stepsOf_of_named fun n hn => (hnamed n (List.mem_append_left _ hn)).1
      have hdown := descend_place true hd (hd.parent h) hnames
      rw [splitFrom_path (by simp) fun n hn => (hnamed n hn).2, ← List.cons_append]
      rcases descend_append follow hdown (List.cons_ne_nil name []) with heq | ⟨-, hno⟩
      · rw [heq, descend_file hname (Nat.not_lt.mpr hl) h]
        rfl
      · exact absurd (hd.parent h) hno

/-- Something that is no link lies at a place. -/
def Firm (d : Disk) (place : Place) : Prop :=
  ∃ node, d.find? place = some node ∧ ∀ target, node ≠ .link target

theorem HasDir.firm (h : d.HasDir place) : d.Firm place := by
  obtain ⟨mode, hdir⟩ := h
  exact ⟨.dir mode, hdir, by simp⟩

theorem Firm.not_link (h : d.Firm place) (target : Path) :
    d.find? place ≠ some (.link target) := by
  obtain ⟨node, hfind, hnode⟩ := h
  rw [hfind]
  exact fun heq => hnode target (Option.some.inj heq)

/-- **The path of something that is no link leads to it.** -/
theorem leads_path (hd : d.WellFormed) (h : d.Firm place) : d.Leads place.path place := by
  obtain ⟨node, hfind, hnode⟩ := h
  refine ⟨path_ne_nil place, ?_⟩
  rw [start, if_pos (isAbsolute_path place)]
  exact resolve_path hd hfind hnode

/-! ### The place that a path names -/

/-- However a path is followed, it names one place, and nothing above that is missing. -/
structure Names (d : Disk) (path : Path) (place : Place) : Prop where
  place_eq : ∀ {follow : Bool} {spot : Spot}, d.locate follow path = .ok spot → spot.place = place
  not_missing : d.locate false path ≠ .error .missing

theorem names_path (hd : d.WellFormed) (h : d.Firm place) : d.Names place.path place := by
  obtain ⟨node, hfind, hnode⟩ := h
  have hr : ∀ follow, d.resolve follow linkLimit (start d.current place.path)
      (splitFrom [] place.path) = .ok (.reached place) := by
    intro follow
    rw [start, if_pos (isAbsolute_path place)]
    exact resolve_path hd hfind hnode
  constructor
  · intro follow spot hl
    have hspot := (hr follow).symm.trans (resolve_of_locate hl).2
    cases hspot
    rfl
  · intro hl
    unfold locate at hl
    split at hl
    · cases hl
    · split at hl
      · next hnil => exact path_ne_nil place hnil
      · split at hl
        · cases hl
        · rw [hr] at hl
          cases hl

theorem Leads.names_join (h : d.Leads base place) (hn : Named name) (hs : slash ∉ name)
    (hlink : ∀ target, d.find? (place ++ [name]) ≠ some (.link target)) :
    d.Names (join base name) (place ++ [name]) := by
  constructor
  · intro follow spot hl
    rcases h.locate_name follow hn hs fun _ => hlink with ⟨spot', hl', hplace⟩ | ⟨e, he, -⟩
    · rw [hl'] at hl
      cases hl
      exact hplace
    · rw [he] at hl
      cases hl
  · intro hl
    rcases h.locate_name false hn hs fun _ => hlink with ⟨spot, hl', -⟩ | ⟨e, he, hne⟩
    · rw [hl'] at hl
      cases hl
    · rw [he] at hl
      cases hl
      exact hne rfl

/-! ### What stays -/

/-- Two things of one kind; links have one target. -/
inductive Alike : Node → Node → Prop where
  | file {content content' : Bytes} : Alike (.file content) (.file content')
  | link {target : Path} : Alike (.link target) (.link target)
  | dir {mode mode' : Nat} : Alike (.dir mode) (.dir mode')

/-- Whatever is on the first disk has something alike on the second one. -/
structure Keeps (d d' : Disk) : Prop where
  current : d'.current = d.current
  find : ∀ {place : Place} {node : Node}, d.find? place = some node →
    ∃ node', d'.find? place = some node' ∧ Alike node node'

/-- Going down is the same, unless it ends at a vacant name or stops. -/
theorem Keeps.descend (h : d.Keeps d') :
    (∀ place, d.descend follow here names = .ended (.reached place) →
      d'.descend follow here names = .ended (.reached place)) ∧
    ∀ base target rest, d.descend follow here names = .link base target rest →
      d'.descend follow here names = .link base target rest := by
  induction names generalizing here with
  | nil => exact ⟨fun place hout => hout, fun base target rest hout => hout⟩
  | cons name rest ih =>
    cases d.meets here name with
    | blank hblank =>
      rw [descend_blank hblank, descend_blank hblank]
      exact ih
    | up hup =>
      rw [hup, descend_up, descend_up]
      exact ih
    | tooLong hn hl =>
      rw [descend_tooLong hn hl, descend_tooLong hn hl]
      exact ⟨fun place hout => hout, fun base target rest hout => hout⟩
    | nothing hn hl hnone =>
      rw [descend_nothing hn hl hnone]
      split
      · exact ⟨by rintro place ⟨⟩, by rintro base target rest ⟨⟩⟩
      · exact ⟨by rintro place ⟨⟩, by rintro base target rest ⟨⟩⟩
    | dir hn hl hdir =>
      obtain ⟨_, hdir', ⟨⟩⟩ := h.find hdir
      rw [descend_dir hn hl hdir, descend_dir hn hl hdir']
      exact ih
    | file hn hl hfile =>
      obtain ⟨_, hfile', ⟨⟩⟩ := h.find hfile
      rw [descend_file hn hl hfile, descend_file hn hl hfile']
      exact ⟨fun place hout => hout, fun base target rest hout => hout⟩
    | link hn hl hlink =>
      obtain ⟨_, hlink', ⟨⟩⟩ := h.find hlink
      rw [descend_link hn hl hlink, descend_link hn hl hlink']
      exact ⟨fun place hout => hout, fun base target rest hout => hout⟩

theorem Keeps.resolve (h : d.Keeps d')
    (hout : d.resolve follow links here names = .ok (.reached place)) :
    d'.resolve follow links here names = .ok (.reached place) := by
  have hr := resolves_of_resolve hout
  clear hout
  generalize hspot : Spot.reached place = spot at hr
  induction hr with
  | ended hout =>
    subst hspot
    exact resolve_of_ended (h.descend.1 _ hout)
  | link hout _ ih =>
    rw [resolve_of_link (h.descend.2 _ _ _ hout)]
    exact ih hspot

/-- **A path goes on leading where it led.** -/
theorem Leads.keeps (h : d.Leads path place) (hk : d.Keeps d') : d'.Leads path place := by
  refine ⟨h.ne_nil, ?_⟩
  rw [hk.current]
  exact hk.resolve h.reached

theorem Alike.refl (node : Node) : Alike node node := by
  cases node with
  | file content => exact .file
  | link target => exact .link
  | dir mode => exact .dir

/-- What is put where nothing was keeps all that was there. -/
theorem keeps_put (h : d.find? place = none) (node : Node) : d.Keeps (d.put place node) := by
  refine ⟨rfl, fun {other old} hold => ⟨old, ?_, .refl old⟩⟩
  have hne : other ≠ place := by
    rintro rfl
    rw [h] at hold
    cases hold
  rwa [find?_put_of_ne hne]

/-- A file goes on being found when its content changes. -/
theorem keeps_put_file {place : Place} {old new : Bytes} (h : d.find? place = some (.file old)) :
    d.Keeps (d.put place (.file new)) := by
  have hne := ne_nil_of_file h
  refine ⟨rfl, fun {other node} hfind => ?_⟩
  by_cases heq : other = place
  · subst heq
    rw [h] at hfind
    cases hfind
    exact ⟨_, find?_put_self hne, .file⟩
  · exact ⟨node, by rwa [find?_put_of_ne heq], .refl node⟩

/-- Changes inside a directory that was empty keep all that was there. -/
theorem Changes.keepsAll {allowed : Place → Option Node → Prop} (h : Changes allowed d d')
    (ha : ∀ place node, allowed place node → root <+: place) (hroot : d.HasDir root)
    (hempty : ∀ place, root <+: place → d.find? place ≠ none → place = root) : d.Keeps d' := by
  refine ⟨h.current_eq, fun {place node} hfind => ?_⟩
  by_cases hp : root <+: place
  · obtain rfl := hempty place hp (by simp [hfind])
    obtain ⟨mode, hdir⟩ := hroot
    rw [hdir] at hfind
    cases hfind
    obtain ⟨mode', hdir'⟩ := h.hasDir ⟨mode, hdir⟩
    exact ⟨_, hdir', .dir⟩
  · exact ⟨node, (h.outside ha hp).trans hfind, .refl node⟩

/-! ### What a removal leaves -/

/-- Going down past something that was removed is the same, unless it ends there. -/
theorem descend_erase (hno : ¬d.HasDir place) :
    (d.erase place).descend follow here names = d.descend follow here names ∨
      (∃ spot, (d.erase place).descend follow here names = .ended spot ∧ spot.place = place) ∨
        (d.erase place).descend follow here names = .stopped .missing := by
  induction names generalizing here with
  | nil => exact .inl rfl
  | cons name rest ih =>
    have hne := ne_nil_of_not_hasDir hno
    have herased : ∀ other, other ≠ place → (d.erase place).find? other = d.find? other :=
      fun other h => by rw [find?_erase, if_neg fun hp => h hp.1]
    -- What lies at the place itself can no longer be found.
    have hthere : Named name → ¬nameLimit < name.length → here ++ [name] = place →
        (∃ spot, (d.erase place).descend follow here (name :: rest) = .ended spot ∧
          spot.place = place) ∨
        (d.erase place).descend follow here (name :: rest) = .stopped .missing := by
      intro hn hl heq
      have hnone : (d.erase place).find? (here ++ [name]) = none := by
        rw [find?_erase, if_pos ⟨heq, hne⟩]
      rw [descend_nothing hn hl hnone]
      split
      · exact .inl ⟨_, rfl, heq⟩
      · exact .inr rfl
    cases d.meets here name with
    | blank hblank =>
      rw [descend_blank hblank, descend_blank hblank]
      exact ih
    | up hup =>
      rw [hup, descend_up, descend_up]
      exact ih
    | tooLong hn hl =>
      rw [descend_tooLong hn hl, descend_tooLong hn hl]
      exact .inl rfl
    | nothing hn hl hnone =>
      by_cases heq : here ++ [name] = place
      · exact .inr (hthere hn hl heq)
      · rw [descend_nothing hn hl hnone, descend_nothing hn hl ((herased _ heq).trans hnone)]
        exact .inl rfl
    | @dir mode hn hl hdir =>
      have heq : here ++ [name] ≠ place := by
        rintro rfl
        exact hno ⟨mode, hdir⟩
      rw [descend_dir hn hl hdir, descend_dir hn hl ((herased _ heq).trans hdir)]
      exact ih
    | file hn hl hfile =>
      by_cases heq : here ++ [name] = place
      · exact .inr (hthere hn hl heq)
      · rw [descend_file hn hl hfile, descend_file hn hl ((herased _ heq).trans hfile)]
        exact .inl rfl
    | link hn hl hlink =>
      by_cases heq : here ++ [name] = place
      · exact .inr (hthere hn hl heq)
      · rw [descend_link hn hl hlink, descend_link hn hl ((herased _ heq).trans hlink)]
        exact .inl rfl

theorem Resolves.place_of_erase (hno : ¬d.HasDir place)
    (hr : Resolves (d.erase place) follow links here names spot)
    (h : d.resolve follow links here names = .ok (.reached place)) : spot.place = place := by
  induction hr with
  | ended hout =>
    rcases descend_erase hno with heq | ⟨spot', hend, hplace⟩ | hstop
    · rw [heq] at hout
      rw [resolve_of_ended hout] at h
      cases h
      rfl
    · rw [hend] at hout
      cases hout
      exact hplace
    · rw [hstop] at hout
      cases hout
  | link hout _ ih =>
    rcases descend_erase hno with heq | ⟨spot', hend, -⟩ | hstop
    · rw [heq] at hout
      rw [resolve_of_link hout] at h
      exact ih h
    · rw [hend] at hout
      cases hout
    · rw [hstop] at hout
      cases hout

/-- **A path names the place of what it led to, also when that was removed.** -/
theorem place_of_locate_erase (hno : ¬d.HasDir place)
    (h : d.locate follow path = .ok (.reached place))
    (hl : (d.erase place).locate follow path = .ok spot) : spot.place = place :=
  (resolves_of_resolve (resolve_of_locate hl).2).place_of_erase hno (resolve_of_locate h).2

end ImageScoring.Disk
