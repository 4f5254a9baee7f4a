import ImageScoring.Files.Resolve
import Mathlib.Data.List.Induction

/-!
# Changes of a disk

Whatever a file operation does to a disk comes down to a few kinds of single changes (`Change`). On
a well-formed disk, where whatever lies somewhere lies in a directory, they keep it well-formed, and
a directory stays one (`Changes.hasDir`). Changes that all lie at a place or below it show nowhere
else (`Changes.outside`); if nothing was there before, erasing that tree undoes them
(`Changes.eraseTree`).
-/

namespace ImageScoring

/-- A name that can stand in a directory. -/
structure Name.Proper (name : Name) : Prop where
  ne_nil : name ≠ []
  ne_dot : name ≠ Path.dot
  ne_dotDot : name ≠ Path.dotDot
  slash_notMem : Path.slash ∉ name
  length_le : name.length ≤ Disk.nameLimit

instance (name : Name) : Decidable name.Proper :=
  decidable_of_iff
    (name ≠ [] ∧ name ≠ Path.dot ∧ name ≠ Path.dotDot ∧ Path.slash ∉ name ∧
      name.length ≤ Disk.nameLimit)
    ⟨fun ⟨h₁, h₂, h₃, h₄, h₅⟩ => ⟨h₁, h₂, h₃, h₄, h₅⟩,
      fun ⟨h₁, h₂, h₃, h₄, h₅⟩ => ⟨h₁, h₂, h₃, h₄, h₅⟩⟩

namespace Disk

/-- A directory lies at a place. -/
def HasDir (d : Disk) (place : Place) : Prop :=
  ∃ mode, d.find? place = some (.dir mode)

instance (d : Disk) (place : Place) : Decidable (d.HasDir place) :=
  match h : d.find? place with
  | some (.dir mode) => .isTrue ⟨mode, h⟩
  | some (.file _) | some (.link _) | none => .isFalse fun ⟨_, hd⟩ => by simp [h] at hd

/-- Whatever lies on the disk has proper names and lies in a directory; relative paths begin at a
directory. -/
structure WellFormed (d : Disk) : Prop where
  current : d.HasDir d.current
  proper : ∀ {place : Place} {node : Node}, d.find? place = some node →
    ∀ name ∈ place, Name.Proper name
  parent : ∀ {place : Place} {name : Name} {node : Node}, d.find? (place ++ [name]) = some node →
    d.HasDir place

/-- A single change: what is put at a place, or `none` if something is removed there. -/
inductive Change (d : Disk) : Place → Option Node → Disk → Prop where
  /-- Something new is made in a directory. -/
  | make {parent : Place} {name : Name} {node : Node} : d.HasDir parent → name.Proper →
      d.find? (parent ++ [name]) = none →
      Change d (parent ++ [name]) (some node) (d.put (parent ++ [name]) node)
  /-- A file gets another content. -/
  | write {place : Place} {old new : Bytes} : d.find? place = some (.file old) →
      Change d place (some (.file new)) (d.put place (.file new))
  /-- A directory gets other permissions. -/
  | setMode {place : Place} {old new : Nat} : d.find? place = some (.dir old) →
      Change d place (some (.dir new)) (d.put place (.dir new))
  /-- Something that is no directory is removed. -/
  | remove {place : Place} {node : Node} : d.find? place = some node →
      (∀ mode, node ≠ .dir mode) → Change d place none (d.erase place)

/-- Any number of changes, each of which is allowed. -/
inductive Changes (allowed : Place → Option Node → Prop) (d : Disk) : Disk → Prop where
  | refl : Changes allowed d d
  | step {d' d'' : Disk} {place : Place} {node : Option Node} : Changes allowed d d' →
      allowed place node → d'.Change place node d'' → Changes allowed d d''

variable {d d' d'' : Disk} {place : Place} {node : Option Node}
  {allowed allowed' : Place → Option Node → Prop}

theorem Changes.trans (h : Changes allowed d d') (h' : Changes allowed d' d'') :
    Changes allowed d d'' := by
  induction h' with
  | refl => exact h
  | step _ ha hc ih => exact ih.step ha hc

theorem Changes.mono (h : Changes allowed d d')
    (hallowed : ∀ place node, allowed place node → allowed' place node) :
    Changes allowed' d d' := by
  induction h with
  | refl => exact .refl
  | step _ ha hc ih => exact ih.step (hallowed _ _ ha) hc

/-- What holds of a disk and is kept by every change that is allowed. -/
theorem Changes.keeps {I : Disk → Prop} (h : Changes allowed d d') (hd : I d)
    (hstep : ∀ {d d' : Disk} {place : Place} {node : Option Node}, allowed place node →
      d.Change place node d' → I d → I d') : I d' := by
  induction h with
  | refl => exact hd
  | step _ ha hc ih => exact hstep ha hc ih

/-! ### What single changes show -/

@[simp] theorem find?_root : d.find? [] = some (.dir plainMode) := by
  simp [find?]

/-- A directory lies at the root. -/
theorem ne_nil_of_not_hasDir {place : Place} (hno : ¬d.HasDir place) : place ≠ [] := by
  rintro rfl
  exact hno ⟨plainMode, find?_root⟩

theorem ne_nil_of_vacant {place : Place} (h : d.find? place = none) : place ≠ [] := by
  rintro rfl
  simp at h

theorem ne_nil_of_file {place : Place} {octets : Bytes}
    (h : d.find? place = some (.file octets)) : place ≠ [] := by
  rintro rfl
  simp at h

theorem find?_put {node : Node} {other : Place} :
    (d.put place node).find? other =
      if other = place ∧ place ≠ [] then some node else d.find? other := by
  by_cases h : other = place
  · subst h
    by_cases hne : other = []
    · subst hne
      simp
    · rw [find?_put_self hne, if_pos ⟨rfl, hne⟩]
  · rw [find?_put_of_ne h, if_neg fun hp => h hp.1]

theorem find?_erase {other : Place} :
    (d.erase place).find? other = if other = place ∧ place ≠ [] then none else d.find? other := by
  by_cases hne : other = []
  · subst hne
    rw [find?_root, find?_root, if_neg fun hp => hp.2 hp.1.symm]
  · simp only [find?, erase, if_neg hne]
    by_cases h : other = place
    · subst h
      rw [lookup_filter_eq_none (p := (· != other)) (by simp), if_pos ⟨rfl, hne⟩]
    · rw [lookup_filter (p := (· != place)) (by simpa using h), if_neg fun hp => h hp.1]

/-- What lies at a place after a change. -/
theorem Change.find?_eq (h : d.Change place node d') (other : Place) :
    d'.find? other = if other = place ∧ place ≠ [] then node else d.find? other := by
  cases h with
  | make _ _ _ => exact find?_put
  | write _ => exact find?_put
  | setMode _ => exact find?_put
  | remove _ _ => exact find?_erase

theorem Change.find?_of_ne (h : d.Change place node d') {other : Place} (hne : other ≠ place) :
    d'.find? other = d.find? other := by
  rw [h.find?_eq, if_neg fun hp => hne hp.1]

theorem Change.current_eq (h : d.Change place node d') : d'.current = d.current := by
  cases h <;> rfl

/-- A directory stays one. -/
theorem Change.hasDir (h : d.Change place node d') {other : Place} (hd : d.HasDir other) :
    d'.HasDir other := by
  obtain ⟨mode, hd⟩ := hd
  by_cases hne : other = place
  · subst hne
    cases h with
    | make _ _ hvacant =>
      rw [hvacant] at hd
      contradiction
    | write hfile =>
      rw [hfile] at hd
      cases hd
    | @setMode _ _ new _ =>
      rw [HasDir, find?_put]
      split
      · exact ⟨new, rfl⟩
      · exact ⟨mode, hd⟩
    | remove hnode hno =>
      rw [hnode] at hd
      exact absurd (Option.some.inj hd) (hno mode)
  · exact ⟨mode, (h.find?_of_ne hne).trans hd⟩

/-- A link is new or was there before. -/
theorem Change.link (h : d.Change place node d') {other : Place} {target : Path}
    (hl : d'.find? other = some (.link target)) :
    d.find? other = some (.link target) ∨ other = place ∧ node = some (.link target) := by
  rw [h.find?_eq] at hl
  split at hl
  · next hp => exact .inr ⟨hp.1, hl⟩
  · exact .inl hl

theorem Change.wellFormed (h : d.Change place node d') (hd : d.WellFormed) : d'.WellFormed := by
  refine ⟨?_, ?_, ?_⟩
  · rw [h.current_eq]
    exact h.hasDir hd.current
  · intro other node' hf name hname
    by_cases hne : other = place
    · subst hne
      cases h with
      | make hparent hproper _ =>
        obtain ⟨_, hparent⟩ := hparent
        rcases List.mem_append.mp hname with hm | hm
        · exact hd.proper hparent name hm
        · rwa [List.mem_singleton.mp hm]
      | write hfile => exact hd.proper hfile name hname
      | setMode hdir => exact hd.proper hdir name hname
      | remove hnode _ => exact hd.proper hnode name hname
    · rw [h.find?_of_ne hne] at hf
      exact hd.proper hf name hname
  · intro other name node' hf
    refine h.hasDir ?_
    by_cases hne : other ++ [name] = place
    · cases h with
      | make hparent _ _ => exact (List.append_inj' hne rfl).1 ▸ hparent
      | write hfile => exact hd.parent (hne ▸ hfile)
      | setMode hdir => exact hd.parent (hne ▸ hdir)
      | remove hnode _ => exact hd.parent (hne ▸ hnode)
    · rw [h.find?_of_ne hne] at hf
      exact hd.parent hf

/-! ### What any number of changes shows -/

theorem Changes.wellFormed (h : Changes allowed d d') (hd : d.WellFormed) : d'.WellFormed :=
  h.keeps hd fun _ hc hw => hc.wellFormed hw

theorem Changes.current_eq (h : Changes allowed d d') : d'.current = d.current :=
  h.keeps (I := fun d' => d'.current = d.current) rfl fun _ hc hcur => hc.current_eq.trans hcur

/-- **A directory stays one.** -/
theorem Changes.hasDir (h : Changes allowed d d') {other : Place} (hd : d.HasDir other) :
    d'.HasDir other :=
  h.keeps hd fun _ hc hdir => hc.hasDir hdir

/-- Where no link may be put, none is new. -/
theorem Changes.not_link (h : Changes allowed d d') {other : Place}
    (ha : ∀ target, ¬allowed other (some (.link target)))
    (hd : ∀ target, d.find? other ≠ some (.link target)) (target : Path) :
    d'.find? other ≠ some (.link target) := by
  refine h.keeps (I := fun d => ∀ target, d.find? other ≠ some (.link target)) hd ?_ target
  intro d d' place node hp hc hold target hl
  rcases hc.link hl with hl | ⟨rfl, rfl⟩
  · exact hold target hl
  · exact ha target hp

/-- The entries of a disk that do not lie at a place or below it. -/
def outside (root : Place) (d : Disk) : List (Place × Node) :=
  d.entries.filter fun e => !root.isPrefixOf e.1

theorem Change.outside_eq {root : Place} (h : d.Change place node d') (hp : root <+: place) :
    d'.outside root = d.outside root := by
  have hfilter : (d.entries.filter (·.1 != place)).filter (fun e => !root.isPrefixOf e.1) =
      d.outside root := by
    rw [List.filter_filter]
    refine List.filter_congr fun e _ => ?_
    by_cases he : root.isPrefixOf e.1
    · simp [he]
    · have hne : e.1 ≠ place := fun heq => he (List.isPrefixOf_iff_prefix.mpr (heq ▸ hp))
      simp [he, hne]
  have hpb : root.isPrefixOf place = true := List.isPrefixOf_iff_prefix.mpr hp
  have hput : ∀ node, (d.put place node).outside root = d.outside root := by
    intro node
    rw [outside, put]
    dsimp only
    rw [List.filter_cons_of_neg (by simp [hpb])]
    exact hfilter
  cases h with
  | make _ _ _ => exact hput _
  | write _ => exact hput _
  | setMode _ => exact hput _
  | remove _ _ => exact hfilter

/-- Changes at a place and below it show nowhere else. -/
theorem Changes.outside_eq {root : Place} (h : Changes allowed d d')
    (ha : ∀ place node, allowed place node → root <+: place) :
    d'.outside root = d.outside root :=
  h.keeps (I := fun d' => d'.outside root = d.outside root) rfl
    fun hp hc hout => (hc.outside_eq (ha _ _ hp)).trans hout

/-- Where no change is allowed, everything is as it was. -/
theorem Changes.untouched {other : Place} (h : Changes allowed d d')
    (ha : ∀ node, ¬allowed other node) : d'.find? other = d.find? other := by
  refine h.keeps (I := fun d' => d'.find? other = d.find? other) rfl ?_
  intro d₁ d₂ place node hp hc hold
  have hne : other ≠ place := by
    rintro rfl
    exact ha _ hp
  exact (hc.find?_of_ne hne).trans hold

theorem Changes.outside {root other : Place} (h : Changes allowed d d')
    (ha : ∀ place node, allowed place node → root <+: place) (ho : ¬root <+: other) :
    d'.find? other = d.find? other :=
  h.untouched fun node hother => ho (ha other node hother)

/-! ### Well-formed disks -/

/-- A disk is well-formed if all that was put on it is. -/
theorem wellFormed_of_entries (hcurrent : d.HasDir d.current)
    (h : ∀ e ∈ d.entries, (∀ name ∈ e.1, Name.Proper name) ∧ d.HasDir e.1.dropLast) :
    d.WellFormed := by
  have hentry : ∀ {place : Place} {node : Node}, place ≠ [] → d.find? place = some node →
      (place, node) ∈ d.entries := by
    intro place node hne hfind
    rw [find?, if_neg hne] at hfind
    obtain ⟨before, behind, heq, -⟩ := List.lookup_eq_some_iff.mp hfind
    simp [heq]
  refine ⟨hcurrent, fun {place node} hfind name hname => ?_, fun {place name node} hfind => ?_⟩
  · exact (h _ (hentry (List.ne_nil_of_mem hname) hfind)).1 name hname
  · have hdir := (h _ (hentry (by simp) hfind)).2
    rwa [List.dropLast_concat] at hdir

/-- Nothing lies below a vacant place. -/
theorem WellFormed.find?_of_prefix (hd : d.WellFormed) {root other : Place}
    (hr : d.find? root = none) (h : root <+: other) : d.find? other = none := by
  obtain ⟨names, rfl⟩ := h
  induction names using List.reverseRecOn with
  | nil => rwa [List.append_nil]
  | append_singleton names name ih =>
    cases hf : d.find? (root ++ (names ++ [name])) with
    | none => rfl
    | some node =>
      rw [← List.append_assoc] at hf
      obtain ⟨mode, hm⟩ := hd.parent hf
      rw [ih] at hm
      contradiction

/-- Whatever is above something is a directory. -/
theorem WellFormed.hasDir_of_prefix (hd : d.WellFormed) {above below : Place} {node : Node}
    (h : d.find? below = some node) (hp : above <+: below) (hne : above ≠ below) :
    d.HasDir above := by
  obtain ⟨names, rfl⟩ := hp
  induction names using List.reverseRecOn generalizing node with
  | nil => exact absurd (List.append_nil above).symm hne
  | append_singleton names name ih =>
    rw [← List.append_assoc] at h
    have hdir := hd.parent h
    by_cases hn : names = []
    · subst hn
      rwa [List.append_nil] at hdir
    · obtain ⟨mode, hm⟩ := hdir
      exact ih hm fun heq => hn (List.append_right_eq_self.mp heq.symm)

/-- **Erasing a new tree undoes every change in it.** -/
theorem Changes.eraseTree {root : Place} (h : Changes allowed d d') (hd : d.WellFormed)
    (ha : ∀ place node, allowed place node → root <+: place) (hr : d.find? root = none) :
    d'.eraseTree root = d := by
  have hne := ne_nil_of_vacant hr
  have hout : d'.entries.filter (fun e => !root.isPrefixOf e.1) = d.entries := by
    refine (h.outside_eq ha).trans (List.filter_eq_self.mpr fun e he => ?_)
    rw [Bool.not_eq_true', Bool.eq_false_iff]
    intro hp
    have hp := List.isPrefixOf_iff_prefix.mp hp
    have hnone := hd.find?_of_prefix hr hp
    have hne' : e.1 ≠ [] := by
      intro h0
      rw [h0] at hp
      exact hne (List.prefix_nil.mp hp)
    rw [find?, if_neg hne'] at hnone
    exact absurd (List.lookup_eq_none_iff.mp hnone e he) (by simp)
  show ({ d' with entries := _ } : Disk) = d
  rw [hout, h.current_eq]

end Disk

end ImageScoring
