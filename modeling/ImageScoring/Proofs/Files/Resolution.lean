import ImageScoring.Proofs.Files.Names

/-!
# Where paths lead

On a well-formed disk a path that can be followed leads to something that is there, or to a vacant
name in a directory (`locate_real`). What a path leads to with more names behind it is told from the
place it leads to itself (`Leads.resolve_join`).
-/

namespace ImageScoring

/-- The place that a path names. -/
def Spot.place : Spot → Place
  | .reached place => place
  | .vacant parent name _ => parent ++ [name]

/-- The place is there, and no link if links are followed; or there is nothing in the directory. -/
def Spot.Real (d : Disk) (follow : Bool) : Spot → Prop
  | .reached place => ∃ node, d.find? place = some node ∧ (follow = true → ∀ t, node ≠ .link t)
  | .vacant parent name _ => d.HasDir parent ∧ name.Proper ∧ d.find? (parent ++ [name]) = none

namespace Disk

open ImageScoring.Path

variable {d d' : Disk} {follow : Bool} {here place : Place} {name : Name}
  {names rest more : List Name} {links : Nat}

theorem WellFormed.hasDir_dropLast (hd : d.WellFormed) (h : d.HasDir place) :
    d.HasDir place.dropLast := by
  cases place using List.reverseRecOn with
  | nil => exact h
  | append_singleton place name _ =>
    obtain ⟨mode, h⟩ := h
    rw [List.dropLast_concat]
    exact hd.parent h

/-! ### One name -/

/-- What a name stands for in the directory `here`. -/
inductive Meets (d : Disk) (here : Place) (name : Name) : Prop where
  | blank : name = [] ∨ name = dot → Meets d here name
  | up : name = dotDot → Meets d here name
  | tooLong : Named name → nameLimit < name.length → Meets d here name
  | nothing : Named name → ¬nameLimit < name.length → d.find? (here ++ [name]) = none →
      Meets d here name
  | dir {mode : Nat} : Named name → ¬nameLimit < name.length →
      d.find? (here ++ [name]) = some (.dir mode) → Meets d here name
  | file {content : Bytes} : Named name → ¬nameLimit < name.length →
      d.find? (here ++ [name]) = some (.file content) → Meets d here name
  | link {target : Path} : Named name → ¬nameLimit < name.length →
      d.find? (here ++ [name]) = some (.link target) → Meets d here name

theorem meets (d : Disk) (here : Place) (name : Name) : d.Meets here name := by
  by_cases hblank : name = [] ∨ name = dot
  · exact .blank hblank
  by_cases hup : name = dotDot
  · exact .up hup
  have hnamed : Named name := ⟨hblank, hup⟩
  by_cases hlength : nameLimit < name.length
  · exact .tooLong hnamed hlength
  cases hfind : d.find? (here ++ [name]) with
  | none => exact .nothing hnamed hlength hfind
  | some node =>
    cases node with
    | file content => exact .file hnamed hlength hfind
    | link target => exact .link hnamed hlength hfind
    | dir mode => exact .dir hnamed hlength hfind

theorem descend_blank (h : name = [] ∨ name = dot) :
    d.descend follow here (name :: rest) = d.descend follow here rest := by
  rw [descend, if_pos h]

theorem descend_up :
    d.descend follow here (dotDot :: rest) = d.descend follow here.dropLast rest := by
  rw [descend, if_neg (by decide), if_pos rfl]

theorem descend_tooLong (hn : Named name) (hl : nameLimit < name.length) :
    d.descend follow here (name :: rest) = .stopped .nameTooLong := by
  rw [descend, if_neg hn.1, if_neg hn.2, if_pos hl]

theorem descend_nothing (hn : Named name) (hl : ¬nameLimit < name.length)
    (h : d.find? (here ++ [name]) = none) :
    d.descend follow here (name :: rest) =
      if rest.all List.isEmpty then .ended (.vacant here name !rest.isEmpty)
      else .stopped .missing := by
  rw [descend, if_neg hn.1, if_neg hn.2, if_neg hl, h]

theorem descend_dir {mode : Nat} (hn : Named name) (hl : ¬nameLimit < name.length)
    (h : d.find? (here ++ [name]) = some (.dir mode)) :
    d.descend follow here (name :: rest) = d.descend follow (here ++ [name]) rest := by
  rw [descend, if_neg hn.1, if_neg hn.2, if_neg hl, h]

theorem descend_file {content : Bytes} (hn : Named name) (hl : ¬nameLimit < name.length)
    (h : d.find? (here ++ [name]) = some (.file content)) :
    d.descend follow here (name :: rest) =
      if rest.isEmpty then .ended (.reached (here ++ [name])) else .stopped .notDirectory := by
  rw [descend, if_neg hn.1, if_neg hn.2, if_neg hl, h]

theorem descend_link {target : Path} (hn : Named name) (hl : ¬nameLimit < name.length)
    (h : d.find? (here ++ [name]) = some (.link target)) :
    d.descend follow here (name :: rest) =
      if rest.isEmpty && !follow then .ended (.reached (here ++ [name]))
      else .link here target rest := by
  rw [descend, if_neg hn.1, if_neg hn.2, if_neg hl, h]

/-! ### Going down -/

/-- What going down ends with. -/
def Descent.Real (d : Disk) (follow : Bool) : Descent → Prop
  | .ended spot => spot.Real d follow
  | .link base _ rest => d.HasDir base ∧ ∀ name ∈ rest, slash ∉ name
  | .stopped _ => True

theorem descend_real (follow : Bool) (hd : d.WellFormed) (hhere : d.HasDir here)
    (hnames : ∀ n ∈ names, slash ∉ n) :
    (d.descend follow here names).Real d follow := by
  induction names generalizing here with
  | nil =>
    obtain ⟨mode, hdir⟩ := hhere
    exact ⟨.dir mode, hdir, by simp⟩
  | cons name rest ih =>
    obtain ⟨hname, hrest⟩ := List.forall_mem_cons.mp hnames
    cases d.meets here name with
    | blank hblank =>
      rw [descend_blank hblank]
      exact ih hhere hrest
    | up hup =>
      rw [hup, descend_up]
      exact ih (hd.hasDir_dropLast hhere) hrest
    | tooLong hn hl =>
      rw [descend_tooLong hn hl]
      trivial
    | nothing hn hl hnone =>
      rw [descend_nothing hn hl hnone]
      split
      · obtain ⟨hne, hdot⟩ := not_or.mp hn.1
        exact ⟨hhere, ⟨hne, hdot, hn.2, hname, Nat.not_lt.mp hl⟩, hnone⟩
      · trivial
    | @dir mode hn hl hdir =>
      rw [descend_dir hn hl hdir]
      exact ih ⟨mode, hdir⟩ hrest
    | file hn hl hfile =>
      rw [descend_file hn hl hfile]
      split
      · exact ⟨_, hfile, by simp⟩
      · trivial
    | link hn hl hlink =>
      rw [descend_link hn hl hlink]
      split
      · next hlast =>
        refine ⟨_, hlink, fun hfollow => ?_⟩
        simp [hfollow] at hlast
      · exact ⟨hhere, hrest⟩

/-- Where a vacant name is told there is nothing, on any disk. -/
theorem find?_of_descend_vacant {parent : Place} {last : Name} {slash : Bool}
    (h : d.descend follow here names = .ended (.vacant parent last slash)) :
    d.find? (parent ++ [last]) = none := by
  induction names generalizing here with
  | nil => cases h
  | cons name rest ih =>
    cases d.meets here name with
    | blank hblank =>
      rw [descend_blank hblank] at h
      exact ih h
    | up hup =>
      rw [hup, descend_up] at h
      exact ih h
    | tooLong hn hl =>
      rw [descend_tooLong hn hl] at h
      cases h
    | nothing hn hl hnone =>
      rw [descend_nothing hn hl hnone] at h
      split at h
      · cases h
        exact hnone
      · cases h
    | dir hn hl hdir =>
      rw [descend_dir hn hl hdir] at h
      exact ih h
    | file hn hl hfile =>
      rw [descend_file hn hl hfile] at h
      split at h <;> cases h
    | link hn hl hlink =>
      rw [descend_link hn hl hlink] at h
      split at h <;> cases h

/-- Going down by more names goes on where the first ones lead. -/
theorem descend_append (follow : Bool)
    (h : d.descend true here names = .ended (.reached place)) (hne : more ≠ []) :
    d.descend follow here (names ++ more) = d.descend follow place more ∨
      d.descend follow here (names ++ more) = .stopped .notDirectory ∧ ¬d.HasDir place := by
  induction names generalizing here with
  | nil =>
    rw [descend] at h
    cases h
    exact .inl rfl
  | cons name rest ih =>
    rw [List.cons_append]
    cases d.meets here name with
    | blank hblank =>
      rw [descend_blank hblank] at h ⊢
      exact ih h
    | up hup =>
      rw [hup, descend_up] at h ⊢
      exact ih h
    | tooLong hn hl =>
      rw [descend_tooLong hn hl] at h
      cases h
    | nothing hn hl hnone =>
      rw [descend_nothing hn hl hnone] at h
      split at h <;> cases h
    | dir hn hl hdir =>
      rw [descend_dir hn hl hdir] at h ⊢
      exact ih h
    | file hn hl hfile =>
      rw [descend_file hn hl hfile] at h ⊢
      refine .inr ⟨if_neg (by simp [hne]), ?_⟩
      rintro ⟨mode, hdir⟩
      split at h
      · cases h
        rw [hfile] at hdir
        cases hdir
      · cases h
    | link hn hl hlink =>
      rw [descend_link hn hl hlink, if_neg (by simp)] at h
      cases h

/-- A link is met before the names behind it. -/
theorem descend_append_of_link {base : Place} {target : Path} {rest : List Name}
    (h : d.descend true here names = .link base target rest) (hne : more ≠ []) :
    d.descend follow here (names ++ more) = .link base target (rest ++ more) := by
  induction names generalizing here with
  | nil =>
    rw [descend] at h
    cases h
  | cons name names ih =>
    rw [List.cons_append]
    cases d.meets here name with
    | blank hblank =>
      rw [descend_blank hblank] at h ⊢
      exact ih h
    | up hup =>
      rw [hup, descend_up] at h ⊢
      exact ih h
    | tooLong hn hl =>
      rw [descend_tooLong hn hl] at h
      cases h
    | nothing hn hl hnone =>
      rw [descend_nothing hn hl hnone] at h
      split at h <;> cases h
    | dir hn hl hdir =>
      rw [descend_dir hn hl hdir] at h ⊢
      exact ih h
    | file hn hl hfile =>
      rw [descend_file hn hl hfile] at h
      split at h <;> cases h
    | link hn hl hlink =>
      rw [descend_link hn hl hlink, if_neg (by simp)] at h
      cases h
      rw [descend_link hn hl hlink, if_neg (by simp [hne])]

/-- A slash behind names only asks for a directory. -/
theorem descend_of_concat_nil :
    (∀ place, d.descend follow here (names ++ [[]]) = .ended (.reached place) →
      d.descend true here names = .ended (.reached place)) ∧
    ∀ base target rest, d.descend follow here (names ++ [[]]) = .link base target rest →
      ∃ rest', rest = rest' ++ [[]] ∧ d.descend true here names = .link base target rest' := by
  induction names generalizing here with
  | nil => exact ⟨fun place h => h, by rintro base target rest ⟨⟩⟩
  | cons name names ih =>
    rw [List.cons_append]
    cases d.meets here name with
    | blank hblank =>
      rw [descend_blank hblank, descend_blank hblank]
      exact ih
    | up hup =>
      rw [hup, descend_up, descend_up]
      exact ih
    | tooLong hn hl =>
      rw [descend_tooLong hn hl]
      exact ⟨by rintro place ⟨⟩, by rintro base target rest ⟨⟩⟩
    | nothing hn hl hnone =>
      rw [descend_nothing hn hl hnone]
      split
      · exact ⟨by rintro place ⟨⟩, by rintro base target rest ⟨⟩⟩
      · exact ⟨by rintro place ⟨⟩, by rintro base target rest ⟨⟩⟩
    | dir hn hl hdir =>
      rw [descend_dir hn hl hdir, descend_dir hn hl hdir]
      exact ih
    | file hn hl hfile =>
      rw [descend_file hn hl hfile, if_neg (by simp)]
      exact ⟨by rintro place ⟨⟩, by rintro base target rest ⟨⟩⟩
    | link hn hl hlink =>
      rw [descend_link hn hl hlink, if_neg (by simp), descend_link hn hl hlink, if_neg (by simp)]
      refine ⟨by rintro place ⟨⟩, ?_⟩
      rintro base target rest ⟨⟩
      exact ⟨names, rfl, rfl⟩

/-! ### Following links -/

/-- Names lead to a spot, through at most that many links. -/
inductive Resolves (d : Disk) (follow : Bool) : Nat → Place → List Name → Spot → Prop where
  | ended {links : Nat} {here : Place} {names : List Name} {spot : Spot} :
      d.descend follow here names = .ended spot → Resolves d follow links here names spot
  | link {links : Nat} {here base : Place} {target : Path} {names rest : List Name} {spot : Spot} :
      d.descend follow here names = .link base target rest →
      Resolves d follow links (start base target) (splitFrom [] target ++ rest) spot →
      Resolves d follow (links + 1) here names spot

theorem resolve_of_ended {spot : Spot} (h : d.descend follow here names = .ended spot) :
    d.resolve follow links here names = .ok spot := by
  rw [resolve, h]

theorem resolve_of_link {base : Place} {target : Path} {rest : List Name}
    (h : d.descend follow here names = .link base target rest) :
    d.resolve follow (links + 1) here names =
      d.resolve follow links (start base target) (splitFrom [] target ++ rest) := by
  rw [resolve, h]

theorem resolves_of_resolve {spot : Spot} (h : d.resolve follow links here names = .ok spot) :
    Resolves d follow links here names spot := by
  induction links generalizing here names with
  | zero =>
    rw [resolve] at h
    split at h
    · next hout =>
      cases h
      exact .ended hout
    · cases h
    · cases h
  | succ links ih =>
    rw [resolve] at h
    split at h
    · next hout =>
      cases h
      exact .ended hout
    · cases h
    · next hout => exact .link hout (ih h)

/-- Where a path begins there is a directory. -/
theorem hasDir_start {base : Place} {path : Path} (h : d.HasDir base) :
    d.HasDir (start base path) := by
  rw [start]
  split
  · exact ⟨plainMode, find?_root⟩
  · exact h

theorem Resolves.real {spot : Spot} (h : Resolves d follow links here names spot)
    (hd : d.WellFormed) (hhere : d.HasDir here) (hnames : ∀ n ∈ names, slash ∉ n) :
    spot.Real d follow := by
  induction h with
  | ended hout =>
    have hreal := descend_real follow hd hhere hnames
    rwa [hout] at hreal
  | @link _ _ _ target _ rest _ hout _ ih =>
    have hreal := descend_real follow hd hhere hnames
    rw [hout] at hreal
    obtain ⟨hbase, hrest⟩ := hreal
    refine ih (hasDir_start hbase) fun n hn => ?_
    rcases List.mem_append.mp hn with hn | hn
    · exact slash_notMem_of_mem_splitFrom List.not_mem_nil hn
    · exact hrest n hn

/-- More names lead on from where the first ones lead. -/
theorem resolve_append (h : d.resolve true links here names = .ok (.reached place))
    (hne : more ≠ []) :
    (∃ links', d.resolve follow links here (names ++ more) = d.resolve follow links' place more) ∨
      d.resolve follow links here (names ++ more) = .error .notDirectory ∧ ¬d.HasDir place := by
  have hr := resolves_of_resolve h
  clear h
  generalize hspot : Spot.reached place = spot at hr
  induction hr with
  | @ended links _ _ _ hout =>
    subst hspot
    rcases descend_append follow hout hne with heq | ⟨hstop, hfile⟩
    · exact .inl ⟨links, by rw [resolve, resolve, heq]⟩
    · exact .inr ⟨by rw [resolve, hstop], hfile⟩
  | link hout _ ih =>
    rw [resolve_of_link (descend_append_of_link hout hne), ← List.append_assoc]
    exact ih hspot

theorem resolve_of_concat_nil
    (h : d.resolve follow links here (names ++ [[]]) = .ok (.reached place)) :
    d.resolve true links here names = .ok (.reached place) := by
  have hr := resolves_of_resolve h
  clear h
  generalize hspot : Spot.reached place = spot at hr
  generalize hwith : names ++ [[]] = withSlash at hr
  induction hr generalizing names with
  | ended hout =>
    subst hspot hwith
    exact resolve_of_ended (descend_of_concat_nil.1 _ hout)
  | link hout _ ih =>
    subst hwith
    obtain ⟨rest', rfl, hlink⟩ := descend_of_concat_nil.2 _ _ _ hout
    rw [resolve_of_link hlink]
    exact ih hspot (List.append_assoc ..)

/-! ### Paths -/

/-- What a path is followed from and by. -/
theorem resolve_of_locate {path : Path} {spot : Spot} (h : d.locate follow path = .ok spot) :
    path ≠ [] ∧
      d.resolve follow linkLimit (start d.current path) (splitFrom [] path) = .ok spot := by
  unfold locate at h
  split at h
  · cases h
  · split at h
    · cases h
    · next hne =>
      split at h
      · cases h
      · exact ⟨hne, h⟩

theorem find?_of_locate_vacant {path : Path} {parent : Place} {name : Name} {slash : Bool}
    (h : d.locate follow path = .ok (.vacant parent name slash)) :
    d.find? (parent ++ [name]) = none := by
  have hr := resolves_of_resolve (resolve_of_locate h).2
  generalize hspot : Spot.vacant parent name slash = spot at hr
  generalize linkLimit = links, start d.current path = here, splitFrom [] path = names at hr
  clear h
  induction hr with
  | ended hout =>
    subst hspot
    exact find?_of_descend_vacant hout
  | link _ _ ih => exact ih hspot

/-- **A path that can be followed leads to something, or to a vacant name in a directory.** -/
theorem locate_real {path : Path} {spot : Spot} (hd : d.WellFormed)
    (h : d.locate follow path = .ok spot) : spot.Real d follow := by
  obtain ⟨-, hr⟩ := resolve_of_locate h
  refine (resolves_of_resolve hr).real hd (hasDir_start hd.current) fun n hn => ?_
  exact slash_notMem_of_mem_splitFrom List.not_mem_nil hn

/-- A path leads to a place, all links followed. Its length does not matter. -/
structure Leads (d : Disk) (path : Path) (place : Place) : Prop where
  ne_nil : path ≠ []
  reached : d.resolve true linkLimit (start d.current path) (splitFrom [] path) =
    .ok (.reached place)

theorem leads_of_locate {path : Path} (h : d.locate true path = .ok (.reached place)) :
    d.Leads path place :=
  ⟨(resolve_of_locate h).1, (resolve_of_locate h).2⟩

theorem Leads.reached_above {path : Path} (h : d.Leads path place)
    (habove : splitFrom [] path = names ∨ splitFrom [] path = names ++ [[]]) :
    d.resolve true linkLimit (start d.current path) names = .ok (.reached place) := by
  rcases habove with rfl | habove
  · exact h.reached
  · have hreached := h.reached
    rw [habove] at hreached
    exact resolve_of_concat_nil hreached

/-- A path that was joined to another one, and its steps from there. -/
inductive Below (base : Path) : Path → List Name → Prop where
  | one {rel : Path} : rel.isAbsolute = false → Below base (join base rel) (steps rel)
  | more {path rel : Path} {names : List Name} : Below base path names → rel.isAbsolute = false →
      Below base (join path rel) (names ++ steps rel)

theorem start_join {base : Place} {path rel : Path} (hpath : path ≠ [])
    (hrel : rel.isAbsolute = false) : start base (join path rel) = start base path := by
  rw [start, start, isAbsolute_join hpath hrel]

/-- The names of such a path: those of the first one, and behind them some with these steps. -/
theorem Below.split {base path : Path} {names : List Name} (h : Below base path names)
    (hbase : base ≠ []) :
    path ≠ [] ∧ (∀ place, start place path = start place base) ∧
      ∃ above raw, raw ≠ [] ∧ stepsOf raw = names ∧ splitFrom [] path = above ++ raw ∧
        (splitFrom [] base = above ∨ splitFrom [] base = above ++ [[]]) := by
  induction h with
  | @one rel hrel =>
    obtain ⟨above, hjoin, habove⟩ := exists_splitFrom_join hbase hrel
    exact ⟨join_ne_nil hbase hrel, fun _ => start_join hbase hrel, above, splitFrom [] rel,
      splitFrom_ne_nil _ _, rfl, hjoin, habove⟩
  | @more path rel names _ hrel ih =>
    obtain ⟨hpath, hstart, above, raw, hraw, hsteps, hsplit, habove⟩ := ih
    obtain ⟨before, hjoin, hbefore⟩ := exists_splitFrom_join hpath hrel
    refine ⟨join_ne_nil hpath hrel, fun place => (start_join hpath hrel).trans (hstart place),
      above, ?_⟩
    rw [hsplit] at hbefore
    rcases hbefore with rfl | hslash
    · refine ⟨raw ++ splitFrom [] rel, by simp [hraw], ?_, by rw [hjoin, List.append_assoc], habove⟩
      rw [stepsOf_append, hsteps, steps]
    · -- The slash at the end of the first path is the one between the two.
      obtain ⟨raw, last, rfl⟩ : ∃ init last, raw = init ++ [last] :=
        ⟨_, _, (List.dropLast_concat_getLast hraw).symm⟩
      rw [← List.append_assoc] at hslash
      obtain ⟨rfl, hlast⟩ := List.append_inj' hslash rfl
      cases hlast
      refine ⟨raw ++ splitFrom [] rel, by simp [splitFrom_ne_nil], ?_, ?_, habove⟩
      · have hblank : stepsOf [[]] = [] := stepsOf_cons_of_blank (.inl rfl) []
        rw [stepsOf_append, hblank, List.append_nil] at hsteps
        rw [stepsOf_append, hsteps, steps]
      · rw [hjoin, List.append_assoc]

/-- **What a path leads to is told from where the path above it leads.** -/
theorem Leads.resolve_join {base rel : Path} (h : d.Leads base place)
    (hrel : rel.isAbsolute = false) (follow : Bool) :
    (∃ links, d.resolve follow linkLimit (start d.current (join base rel))
        (splitFrom [] (join base rel)) = d.resolve follow links place (splitFrom [] rel)) ∨
      d.resolve follow linkLimit (start d.current (join base rel))
        (splitFrom [] (join base rel)) = .error .notDirectory ∧ ¬d.HasDir place := by
  obtain ⟨above, hjoin, habove⟩ := exists_splitFrom_join h.ne_nil hrel
  rw [start_join h.ne_nil hrel, hjoin]
  exact resolve_append (h.reached_above habove) (splitFrom_ne_nil _ _)

theorem Leads.resolve_below {base path : Path} {names : List Name} (h : d.Leads base place)
    (hb : Below base path names) (follow : Bool) :
    ∃ raw, stepsOf raw = names ∧
      ((∃ links, d.resolve follow linkLimit (start d.current path) (splitFrom [] path) =
          d.resolve follow links place raw) ∨
        d.resolve follow linkLimit (start d.current path) (splitFrom [] path) =
          .error .notDirectory ∧ ¬d.HasDir place) := by
  obtain ⟨-, hstart, above, raw, hraw, hsteps, hsplit, habove⟩ := hb.split h.ne_nil
  refine ⟨raw, hsteps, ?_⟩
  rw [hstart, hsplit]
  exact resolve_append (h.reached_above habove) hraw

end Disk

end ImageScoring
