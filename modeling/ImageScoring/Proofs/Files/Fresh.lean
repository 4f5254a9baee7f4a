import ImageScoring.Proofs.Files.Actions

/-!
# New directories

A new directory is made in a place where nothing was, and its path leads there
(`ensures_makeFreshDir`, `Fresh.leads`).
-/

namespace ImageScoring.Disk

open ImageScoring.Path DiskAction

variable {d d' : Disk} {parent : Path} {stem name : Name} {there : Place}

theorem slash_notMem_sixDigits (n : Nat) : slash ∉ sixDigits n := by
  intro h
  obtain ⟨i, -, hi⟩ := List.mem_map.mp h
  have hsize : UInt8.size = 256 := rfl
  have hslash : slash.toNat = 47 := rfl
  have hdigit := congrArg UInt8.toNat hi
  rw [UInt8.toNat_ofNat_of_lt' (by omega), hslash] at hdigit
  omega

/-- A stem and six digits are no dots. -/
theorem named_sixDigits (n : Nat) : Named (stem ++ sixDigits n) := by
  have hlength : 6 ≤ (stem ++ sixDigits n).length := by
    simp [sixDigits]
  refine ⟨?_, ?_⟩
  · rintro (h | h) <;> rw [h] at hlength <;> simp [dot] at hlength
  · intro h
    rw [h] at hlength
    simp [dotDot] at hlength

theorem freshName_eq_some {tries n : Nat} (h : d.freshName there stem tries n = some name) :
    d.find? (there ++ [name]) = none ∧ ∃ n, name = stem ++ sixDigits n := by
  induction tries generalizing n with
  | zero => cases h
  | succ tries ih =>
    rw [freshName] at h
    split at h
    · next hnone =>
      cases h
      exact ⟨hnone, n, rfl⟩
    · exact ih h

/-- A directory that was made where nothing was. -/
structure Fresh (d : Disk) (parent : Path) (place : Place) (path : Path) (d' : Disk) : Prop where
  vacant : d.find? place = none
  made : d' = d.put place (.dir 0o700)
  /-- It lies in the directory that the parent's path leads to, and its path is seen from there. -/
  inside : ∃ there name, d.locate true parent = .ok (.reached there) ∧ Named name ∧ slash ∉ name ∧
    place = there ++ [name] ∧ path = join parent name
  located : ∃ spot, d.locate false path = .ok spot ∧ spot.place = place

theorem ensures_makeFreshDir (hstem : slash ∉ stem) :
    Ensures (· = d) (makeFreshDir parent stem)
      (fun found d' => Fresh d parent found.1 found.2 d') (fun _ d' => d' = d) := by
  have hcanonical : Ensures (· = d) (look (·.canonical parent))
      (fun there d' => d' = d ∧ d.locate true parent = .ok (.reached there))
      (fun (_ : FileFault) d' => d' = d) := by
    refine (ensures_canonical fun d' e h => h).to_post ?_
    rintro there d' ⟨rfl, hl, -⟩
    exact ⟨rfl, hl⟩
  refine ensures_bind hcanonical fun there => ?_
  have hget : Ensures (fun d' => d' = d ∧ d.locate true parent = .ok (.reached there))
      (get : DiskAction FileFault Disk)
      (fun now d' => now = d ∧ d' = d ∧ d.locate true parent = .ok (.reached there))
      (fun _ d' => d' = d) := by
    refine ensures_get ?_
    rintro d' ⟨rfl, hl⟩
    exact ⟨rfl, rfl, hl⟩
  refine ensures_bind_fact hget ?_
  rintro now rfl
  have hagain : Ensures (fun d' => d' = now ∧ now.locate true parent = .ok (.reached there))
      (get : DiskAction FileFault Disk)
      (fun _ d' => d' = now ∧ now.locate true parent = .ok (.reached there))
      (fun _ d' => d' = now) :=
    ensures_get fun d' hd => hd
  refine ensures_bind hagain fun again => ?_
  split
  · exact ensures_throw fun d' hd => hd.1
  · next name hname =>
    obtain ⟨hvacant, n, rfl⟩ := freshName_eq_some hname
    have hnamed : Named (stem ++ sixDigits n) := named_sixDigits n
    have hslash : slash ∉ stem ++ sixDigits n := by
      simp [hstem, slash_notMem_sixDigits]
    have hmake : Ensures (fun d' => d' = now ∧ now.locate true parent = .ok (.reached there))
        (makeDir (join parent (stem ++ sixDigits n)) 0o700)
        (fun _ d' => Fresh now parent (there ++ [stem ++ sixDigits n])
          (join parent (stem ++ sixDigits n)) d')
        (fun _ d' => d' = now) := by
      refine ensures_makeDir ?_ (fun d' hd => hd.1) fun d' e hd _ => hd.1
      rintro d' spot ⟨rfl, hl⟩ hspot hnone
      have hplace : spot.place = there ++ [stem ++ sixDigits n] := by
        rcases (leads_of_locate hl).locate_name false hnamed hslash (by simp) with
          ⟨spot', hspot', hplace⟩ | ⟨e, he, -⟩
        · rw [hspot] at hspot'
          cases hspot'
          exact hplace
        · rw [hspot] at he
          cases he
      rw [hplace]
      exact ⟨hvacant, rfl, ⟨there, _, hl, hnamed, hslash, rfl, rfl⟩, spot, hspot, hplace⟩
    exact ensures_bind hmake fun _ => ensures_pure fun d' hd => hd

variable {place : Place} {path : Path}

theorem Fresh.ne_nil (h : Fresh d parent place path d') : place ≠ [] :=
  ne_nil_of_vacant h.vacant

theorem Fresh.hasDir (h : Fresh d parent place path d') : d'.HasDir place := by
  rw [h.made]
  exact ⟨_, find?_put_self h.ne_nil⟩

/-- The new directory is the only change. -/
theorem Fresh.changes (h : Fresh d parent place path d') (hd : d.WellFormed) :
    Changes (fun other _ => place <+: other) d d' := by
  obtain ⟨spot, hl, hplace⟩ := h.located
  have hnone : d.find? spot.place = none := hplace ▸ h.vacant
  rw [h.made, ← hplace]
  exact Changes.refl.put_vacant hd hl hnone (List.prefix_refl _)

theorem Fresh.wellFormed (h : Fresh d parent place path d') (hd : d.WellFormed) : d'.WellFormed :=
  (h.changes hd).wellFormed hd

/-- Nothing is in it. -/
theorem Fresh.empty (h : Fresh d parent place path d') (hd : d.WellFormed) {other : Place}
    (hp : place <+: other) (hne : other ≠ place) : d'.find? other = none := by
  rw [h.made, find?_put_of_ne hne]
  exact hd.find?_of_prefix h.vacant hp

theorem Fresh.leads (h : Fresh d parent place path d') (hd : d.WellFormed) :
    d'.Leads path place := by
  obtain ⟨there, name, hl, hn, hs, hplace, hpath⟩ := h.inside
  subst hplace hpath
  have hdir := h.hasDir
  have hparent : d'.Leads parent there := by
    rw [h.made]
    exact (leads_of_locate hl).keeps (keeps_put h.vacant _)
  exact hparent.down (h.wellFormed hd) hn hs hdir

end ImageScoring.Disk
