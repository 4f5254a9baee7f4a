import ImageScoring.Proofs.Files.Logic
import ImageScoring.Proofs.Files.Routes

/-!
# What file operations do

A rule for every file operation: what it ensures follows from what holds of the disk with the one
thing changed that the operation changes, where its path leads. An operation that fails has changed
nothing; only copying and the making of several directories have parts that can fail one by one.
-/

namespace ImageScoring.Disk

open DiskAction

variable {P : Disk → Prop} {Q : Unit → Disk → Prop} {E : FileFault → Disk → Prop} {path : Path}

/-! ### Looking -/

/-- What following a path shows. -/
theorem ensures_locate {follow : Bool}
    (herror : ∀ d e, P d → d.locate follow path = .error e → E e d) :
    Ensures P (look (·.locate follow path))
      (fun spot d => P d ∧ d.locate follow path = .ok spot) E :=
  ensures_look (fun _ _ hp hl => ⟨hp, hl⟩) herror

theorem status_eq_ok {d : Disk} {follow : Bool} {place : Place} {node : Node}
    (h : d.status follow path = .ok (place, node)) :
    d.locate follow path = .ok (.reached place) ∧ d.find? place = some node := by
  unfold status at h
  split at h
  · cases h
  · cases h
  · next hl =>
    split at h
    · next hfind =>
      cases h
      exact ⟨hl, hfind⟩
    · cases h

/-- What is said to be missing in a directory is not there, and what is found there lies there. -/
theorem Leads.status_name {d : Disk} {base : Path} {place : Place} {name : Name}
    (h : d.Leads base place) (hn : Path.Named name) (hs : Path.slash ∉ name) :
    (d.status false (Path.join base name) = .error .missing → d.find? (place ++ [name]) = none) ∧
      ∀ found, d.status false (Path.join base name) = .ok found →
        found.1 = place ++ [name] ∧ d.find? (place ++ [name]) = some found.2 := by
  have hlocate := h.locate_name false hn hs (by simp)
  constructor
  · intro hmissing
    unfold status at hmissing
    rcases hlocate with ⟨spot, hl, hplace⟩ | ⟨e, he, hne⟩
    · rw [hl] at hmissing
      cases spot with
      | vacant parent last slash => exact hplace ▸ find?_of_locate_vacant hl
      | reached there =>
        dsimp only at hmissing
        split at hmissing
        · cases hmissing
        · next hnone => exact hplace ▸ hnone
    · rw [he] at hmissing
      cases hmissing
      exact absurd rfl hne
  · rintro ⟨there, node⟩ hfound
    obtain ⟨hl, hfind⟩ := status_eq_ok hfound
    rcases hlocate with ⟨spot, hl', hplace⟩ | ⟨e, he, -⟩
    · rw [hl] at hl'
      cases hl'
      have hthere : there = place ++ [name] := hplace
      exact ⟨hthere, hthere ▸ hfind⟩
    · rw [hl] at he
      cases he

/-- What is at the end of a path. -/
theorem ensures_status {follow : Bool} (herror : ∀ d e, P d → E e d) :
    Ensures P (look (·.status follow path)) (fun found d => P d ∧
      d.locate follow path = .ok (.reached found.1) ∧ d.find? found.1 = some found.2) E :=
  ensures_look (fun _ _ hp hs => ⟨hp, status_eq_ok hs⟩) fun d e hp _ => herror d e hp

/-- What a path leads to, all links followed. -/
theorem ensures_canonical (herror : ∀ d e, P d → E e d) :
    Ensures P (look (·.canonical path)) (fun place d => P d ∧
      d.locate true path = .ok (.reached place) ∧ d.find? place ≠ none) E := by
  refine ensures_look (fun d place hp hc => ⟨hp, ?_⟩) fun d e hp _ => herror d e hp
  unfold canonical at hc
  cases hs : d.status true path with
  | error e =>
    rw [hs] at hc
    cases hc
  | ok found =>
    rw [hs] at hc
    cases hc
    obtain ⟨hl, hfind⟩ := status_eq_ok hs
    exact ⟨hl, by simp [hfind]⟩

theorem exists_of_isDir {d : Disk} (h : d.isDir path = true) :
    ∃ place, d.locate true path = .ok (.reached place) ∧ d.HasDir place := by
  unfold isDir at h
  split at h
  · next place mode hs =>
    obtain ⟨hl, hfind⟩ := status_eq_ok hs
    exact ⟨place, hl, mode, hfind⟩
  · cases h

/-! ### Files -/

theorem ensures_putAt {place : Place} {node : Node} (h : ∀ d, P d → Q () (d.put place node)) :
    Ensures P (putAt place node) Q E :=
  ensures_modify h

theorem ensures_create {Q : Place → Disk → Prop}
    (hput : ∀ d spot, P d → d.locate true path = .ok spot → ¬d.HasDir spot.place →
      Q spot.place (d.put spot.place (.file [])))
    (herror : ∀ d e, P d → E e d) : Ensures P (create path) Q E := by
  refine ensures_bind (ensures_locate fun d e hp _ => herror d e hp) fun spot => ?_
  cases spot with
  | vacant parent name slash =>
    cases slash with
    | true => exact ensures_throw fun d hd => herror d _ hd.1
    | false =>
      have hnone : ∀ d : Disk, d.locate true path = .ok (.vacant parent name false) →
          ¬d.HasDir (parent ++ [name]) := by
        rintro d hl ⟨mode, hdir⟩
        rw [find?_of_locate_vacant hl] at hdir
        cases hdir
      have hmade : Ensures (fun d => P d ∧ d.locate true path = .ok (.vacant parent name false))
          (putAt (parent ++ [name]) (.file [])) (fun _ => Q (parent ++ [name])) E :=
        ensures_putAt fun d hd => hput d _ hd.1 hd.2 (hnone d hd.2)
      exact ensures_bind hmade fun _ => ensures_pure fun d hd => hd
  | reached there =>
    have hget : Ensures (fun d => P d ∧ d.locate true path = .ok (.reached there)) get
        (fun now d => now = d ∧ P d ∧ d.locate true path = .ok (.reached there)) E :=
      ensures_get fun d hd => ⟨rfl, hd⟩
    refine ensures_bind hget fun now => ?_
    split
    · exact ensures_throw fun d hd => herror d _ hd.2.1
    · next hno =>
      have hput' : Ensures
          (fun d => now = d ∧ P d ∧ d.locate true path = .ok (.reached there))
          (putAt there (.file [])) (fun _ => Q there) E := by
        refine ensures_putAt ?_
        rintro d ⟨rfl, hp, hl⟩
        refine hput _ _ hp hl ?_
        rintro ⟨mode, hdir⟩
        exact hno mode hdir
      exact ensures_bind hput' fun _ => ensures_pure fun d hd => hd

/-- What is copied is read after the target has been emptied. -/
theorem ensures_copy {source : Path}
    (hput : ∀ d origin content spot, P d → d.locate true source = .ok (.reached origin) →
      d.find? origin = some (.file content) → d.locate true path = .ok spot →
      ¬d.HasDir spot.place → Q () ((d.put spot.place (.file [])).put spot.place
        (.file ((d.put spot.place (.file [])).content origin))))
    (herror : ∀ d e, P d → E e d) : Ensures P (copy source path) Q E := by
  refine ensures_bind (ensures_status herror) fun ⟨origin, node⟩ => ?_
  cases node with
  | dir mode => exact ensures_throw fun d hd => herror d _ hd.1
  | link target => exact ensures_throw fun d hd => herror d _ hd.1
  | file content =>
    have hcreate : Ensures (fun d => P d ∧ d.locate true source = .ok (.reached origin) ∧
          d.find? origin = some (.file content)) (create path)
        (fun there d => Q () (d.put there (.file (d.content origin)))) E :=
      ensures_create (fun d spot hd hl hno => hput d origin content spot hd.1 hd.2.1 hd.2.2 hl hno)
        fun d e hd => herror d e hd.1
    refine ensures_bind hcreate fun there => ?_
    have hget : Ensures (fun d => Q () (d.put there (.file (d.content origin)))) get
        (fun now d => Q () (d.put there (.file (now.content origin)))) E :=
      ensures_get fun d hd => hd
    exact ensures_bind hget fun now => ensures_putAt fun d hd => hd

/-- The vacant place that a path names. -/
theorem ensures_vacancy {Q : Place × Bool → Disk → Prop}
    (hvacant : ∀ d parent name slash, P d → d.locate false path = .ok (.vacant parent name slash) →
      Q (parent ++ [name], slash) d)
    (hthere : ∀ d, P d → E .alreadyThere d)
    (herror : ∀ d e, P d → d.locate false path = .error e → E e d) :
    Ensures P (vacancy path) Q E := by
  refine ensures_bind (ensures_locate herror) fun spot => ?_
  cases spot with
  | reached place => exact ensures_throw fun d hd => hthere d hd.1
  | vacant parent name slash => exact ensures_pure fun d hd => hvacant d _ _ _ hd.1 hd.2

/-- Something new is put where nothing is. -/
theorem ensures_vacancy_put {node : Node}
    (hput : ∀ d spot, P d → d.locate false path = .ok spot → d.find? spot.place = none →
      Q () (d.put spot.place node))
    (hthere : ∀ d, P d → E .alreadyThere d)
    (herror : ∀ d e, P d → d.locate false path = .error e → E e d) :
    Ensures P (do let (there, _) ← vacancy path; putAt there node) Q E := by
  have hvacancy : Ensures P (vacancy path) (fun found d => Q () (d.put found.1 node)) E := by
    refine ensures_vacancy (fun d parent name slash hp hl => ?_) hthere herror
    exact hput d (.vacant parent name slash) hp hl (find?_of_locate_vacant hl)
  refine ensures_bind hvacancy fun found => ?_
  exact ensures_putAt fun d hd => hd

theorem ensures_createNew {Q : Place → Disk → Prop}
    (hput : ∀ d spot, P d → d.locate false path = .ok spot → d.find? spot.place = none →
      Q spot.place (d.put spot.place (.file [])))
    (herror : ∀ d e, P d → E e d) : Ensures P (createNew path) Q E := by
  have hvacancy : Ensures P (vacancy path)
      (fun found d => P d ∧ Q found.1 (d.put found.1 (.file []))) E := by
    refine ensures_vacancy (fun d parent name slash hp hl => ⟨hp, ?_⟩) (fun d hp => herror d _ hp)
      fun d e hp _ => herror d e hp
    exact hput d (.vacant parent name slash) hp hl (find?_of_locate_vacant hl)
  refine ensures_bind hvacancy fun ⟨there, slash⟩ => ?_
  have hput' : Ensures (fun d => P d ∧ Q there (d.put there (.file [])))
      (putAt there (.file [])) (fun _ => Q there) E :=
    ensures_putAt fun d hd => hd.2
  cases slash with
  | true => exact ensures_throw fun d hd => herror d _ hd.1
  | false => exact ensures_bind hput' fun _ => ensures_pure fun d hd => hd

/-! ### Directories -/

theorem ensures_makeDir {mode : Nat}
    (hput : ∀ d spot, P d → d.locate false path = .ok spot → d.find? spot.place = none →
      Q () (d.put spot.place (.dir mode)))
    (hthere : ∀ d, P d → E .alreadyThere d)
    (herror : ∀ d e, P d → d.locate false path = .error e → E e d) :
    Ensures P (makeDir path mode) Q E :=
  ensures_vacancy_put hput hthere herror

theorem ensures_setMode {mode : Nat}
    (hput : ∀ d place old, P d → d.locate true path = .ok (.reached place) →
      d.find? place = some (.dir old) → Q () (d.put place (.dir mode)))
    (hrest : ∀ d place node, P d → d.locate true path = .ok (.reached place) →
      d.find? place = some node → (∀ mode, node ≠ .dir mode) → Q () d)
    (herror : ∀ d e, P d → E e d) : Ensures P (setMode path mode) Q E := by
  refine ensures_bind (ensures_status herror) fun ⟨there, node⟩ => ?_
  cases node with
  | dir old => exact ensures_putAt fun d hd => hput d there old hd.1 hd.2.1 hd.2.2
  | file content => exact ensures_pure fun d hd => hrest d there _ hd.1 hd.2.1 hd.2.2 (by simp)
  | link target => exact ensures_pure fun d hd => hrest d there _ hd.1 hd.2.1 hd.2.2 (by simp)

/-- Whether a directory is there after all. -/
theorem ensures_orThere (fault : FileFault) (hthere : ∀ d, P d → d.isDir path = true → Q () d)
    (herror : ∀ d, P d → E fault d) :
    Ensures P (do unless (← get).isDir path do throw fault) Q E := by
  have hget : Ensures P get (fun now d => now = d ∧ P d) E := ensures_get fun d hd => ⟨rfl, hd⟩
  refine ensures_bind hget fun now => ?_
  by_cases hdir : now.isDir path = true
  · rw [if_pos hdir]
    refine ensures_pure ?_
    rintro d ⟨rfl, hp⟩
    exact hthere _ hp hdir
  · rw [if_neg hdir]
    exact ensures_throw fun d hd => herror d hd.2

/-- Where the directory above is there, one directory is made at most. -/
theorem ensures_makeDirs (hne : path ≠ [])
    (hput : ∀ d spot, P d → d.locate false path = .ok spot → d.find? spot.place = none →
      Q () (d.put spot.place (.dir plainMode)))
    (hthere : ∀ d, P d → d.isDir path = true → Q () d)
    (habove : ∀ d, P d → d.locate false path ≠ .error .missing)
    (herror : ∀ d e, P d → E e d) : Ensures P (makeDirs path) Q E := by
  unfold makeDirs makeDirsWithin
  rw [if_neg hne]
  have hmake : Ensures P (makeDir path plainMode) Q (fun fault d => P d ∧ fault ≠ .missing) := by
    refine ensures_makeDir hput (fun d hp => ⟨hp, by simp⟩) fun d e hp hl => ⟨hp, ?_⟩
    rintro rfl
    exact habove d hp hl
  refine ensures_tryCatch hmake fun fault => ?_
  by_cases hmissing : fault = .missing
  · intro d hd
    exact absurd hmissing hd.2
  · rw [if_neg hmissing]
    exact ensures_orThere fault (fun d hd => hthere d hd.1) fun d hd => herror d fault hd.1

/-- What the making of a single directory keeps, that of several keeps. -/
theorem ensures_makeDirs_of_keeps
    (hput : ∀ d path spot, P d → d.locate false path = .ok spot → d.find? spot.place = none →
      P (d.put spot.place (.dir plainMode))) :
    Ensures P (makeDirs path) (fun _ => P) (fun _ => P) := by
  have hmake : ∀ path, Ensures P (makeDir path plainMode) (fun _ => P) (fun _ => P) := fun path =>
    ensures_makeDir (hput · path) (fun d hp => hp) fun d e hp _ => hp
  unfold makeDirs
  generalize path.length + 1 = depth
  induction depth generalizing path with
  | zero => exact ensures_throw fun d hp => hp
  | succ depth ih =>
    unfold makeDirsWithin
    by_cases hnil : path = []
    · rw [if_pos hnil]
      exact ensures_pure fun d hp => hp
    rw [if_neg hnil]
    have horThere : ∀ fault, Ensures P (do unless (← get).isDir path do throw fault)
        (fun _ => P) (fun _ => P) := fun fault =>
      ensures_orThere fault (fun d hp _ => hp) fun d hp => hp
    refine ensures_tryCatch (hmake path) fun fault => ?_
    by_cases hmissing : fault = .missing
    · rw [if_pos hmissing]
      cases Path.parent? path with
      | none => exact ensures_throw fun d hp => hp
      | some parent =>
        exact ensures_bind ih fun _ => ensures_tryCatch (hmake path) horThere
    · rw [if_neg hmissing]
      exact horThere fault

/-! ### Links and names -/

theorem ensures_link {target : Path}
    (hput : ∀ d spot, P d → d.locate false path = .ok spot → d.find? spot.place = none →
      Q () (d.put spot.place (.link target)))
    (herror : ∀ d e, P d → E e d) : Ensures P (link target path) Q E := by
  have hput' : Ensures P (do let (there, _) ← vacancy path; putAt there (.link target)) Q E :=
    ensures_vacancy_put hput (fun d hp => herror d _ hp) fun d e hp _ => herror d e hp
  unfold link
  dsimp only
  by_cases hzero : 0 ∈ target
  · rw [if_pos hzero]
    exact ensures_throw fun d hd => herror d _ hd
  rw [if_neg hzero]
  by_cases hempty : target = []
  · rw [if_pos hempty]
    exact ensures_throw fun d hd => herror d _ hd
  rw [if_neg hempty]
  by_cases hlong : pathLimit ≤ target.length
  · rw [if_pos hlong]
    exact ensures_throw fun d hd => herror d _ hd
  rw [if_neg hlong]
  exact hput'

/-- A second name is one of a file or of a link. -/
theorem ensures_name {source : Path}
    (hput : ∀ d spot node, P d → d.locate false path = .ok spot → d.find? spot.place = none →
      (∀ mode, node ≠ .dir mode) → Q () (d.put spot.place node))
    (herror : ∀ d e, P d → E e d) : Ensures P (name source path) Q E := by
  have hstatus : Ensures P (look (·.status false source)) (fun _ => P) E :=
    (ensures_status herror).to_post fun found d hd => hd.1
  refine ensures_bind hstatus fun ⟨_, node⟩ => ?_
  cases node with
  | dir mode =>
    have hvacancy : Ensures P (vacancy path) (fun _ => P) E :=
      ensures_vacancy (fun d _ _ _ hp _ => hp) (fun d hp => herror d _ hp)
        fun d e hp _ => herror d e hp
    exact ensures_bind hvacancy fun _ => ensures_throw fun d hd => herror d _ hd
  | file content =>
    exact ensures_vacancy_put (fun d spot hp hl hn => hput d spot _ hp hl hn (by simp))
      (fun d hp => herror d _ hp) fun d e hp _ => herror d e hp
  | link target =>
    exact ensures_vacancy_put (fun d spot hp hl hn => hput d spot _ hp hl hn (by simp))
      (fun d hp => herror d _ hp) fun d e hp _ => herror d e hp

theorem ensures_remove
    (herase : ∀ d place node, P d → d.locate false path = .ok (.reached place) →
      d.find? place = some node → (∀ mode, node ≠ .dir mode) → Q () (d.erase place))
    (herror : ∀ d e, P d → E e d) : Ensures P (remove path) Q E := by
  refine ensures_bind (ensures_status herror) fun ⟨there, node⟩ => ?_
  cases node with
  | dir mode => exact ensures_throw fun d hd => herror d _ hd.1
  | file content => exact ensures_modify fun d hd => herase d there _ hd.1 hd.2.1 hd.2.2 (by simp)
  | link target => exact ensures_modify fun d hd => herase d there _ hd.1 hd.2.1 hd.2.2 (by simp)

/-! ### Changes where paths lead -/

section Changes

variable {d₀ d : Disk} {allowed : Place → Option Node → Prop} {follow : Bool} {spot : Spot}
  {place : Place}

/-- Something new is made where a path leads. -/
theorem Changes.put_vacant (h : Changes allowed d₀ d) (hd : d.WellFormed)
    (hl : d.locate follow path = .ok spot) (hn : d.find? spot.place = none) {node : Node}
    (ha : allowed spot.place (some node)) : Changes allowed d₀ (d.put spot.place node) := by
  have hreal := locate_real hd hl
  cases spot with
  | reached there =>
    obtain ⟨node, hfind, -⟩ := hreal
    exact absurd (hn.symm.trans hfind) (by simp)
  | vacant parent name slash =>
    obtain ⟨hparent, hname, hnone⟩ := hreal
    exact h.step ha (.make hparent hname hnone)

/-- A file is made or emptied where a path leads. -/
theorem Changes.put_file (h : Changes allowed d₀ d) (hd : d.WellFormed)
    (hl : d.locate true path = .ok spot) (hno : ¬d.HasDir spot.place) {content : Bytes}
    (ha : allowed spot.place (some (.file content))) :
    Changes allowed d₀ (d.put spot.place (.file content)) := by
  have hreal := locate_real hd hl
  cases spot with
  | reached there =>
    obtain ⟨node, hfind, hnode⟩ := hreal
    cases node with
    | file old => exact h.step ha (.write hfind)
    | link target => exact absurd rfl (hnode rfl target)
    | dir mode => exact absurd ⟨mode, hfind⟩ hno
  | vacant parent name slash =>
    obtain ⟨hparent, hname, hnone⟩ := hreal
    exact h.step ha (.make hparent hname hnone)

/-- All that was there stays where a file is made or emptied. -/
theorem keeps_put_at {content : Bytes} (hd : d.WellFormed)
    (hl : d.locate true path = .ok spot) (hno : ¬d.HasDir spot.place) :
    d.Keeps (d.put spot.place (.file content)) := by
  have hreal := locate_real hd hl
  cases spot with
  | reached there =>
    obtain ⟨node, hfind, hnode⟩ := hreal
    cases node with
    | file old => exact keeps_put_file hfind
    | link target => exact absurd rfl (hnode rfl target)
    | dir mode => exact absurd ⟨mode, hfind⟩ hno
  | vacant parent name slash =>
    obtain ⟨-, -, hnone⟩ := hreal
    exact keeps_put hnone _

/-- A file that is there gets another content. -/
theorem Changes.put_content (h : Changes allowed d₀ d) {old new : Bytes}
    (hfile : d.find? place = some (.file old)) (ha : allowed place (some (.file new))) :
    Changes allowed d₀ (d.put place (.file new)) :=
  h.step ha (.write hfile)

theorem Changes.put_mode (h : Changes allowed d₀ d) {old new : Nat}
    (hdir : d.find? place = some (.dir old)) (ha : allowed place (some (.dir new))) :
    Changes allowed d₀ (d.put place (.dir new)) :=
  h.step ha (.setMode hdir)

theorem Changes.erase (h : Changes allowed d₀ d) {node : Node} (hfind : d.find? place = some node)
    (hno : ∀ mode, node ≠ .dir mode) (ha : allowed place none) :
    Changes allowed d₀ (d.erase place) :=
  h.step ha (.remove hfind hno)

end Changes

end ImageScoring.Disk
