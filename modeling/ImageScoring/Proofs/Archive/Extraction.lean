import ImageScoring.Archive.Zip.Extract
import ImageScoring.Proofs.Files.Actions

/-!
# Where zip archives are unpacked

Unpacking a zip archive changes nothing outside the directory that it is unpacked to, whatever the
names of its members and wherever its links lead. Inside, only what lies on the way to a member
changes, and a link is put only where a member that is one is to be unpacked (`ensures_extract`).
-/

namespace ImageScoring

open ImageScoring.Path

namespace Zip

open DiskAction Disk

/-! ### The names of members -/

theorem mem_of_namesBelow? {acc names : List Name} {steps : List Component}
    (h : namesBelow? acc steps = some names) {name : Name} (hname : name ∈ names) :
    name ∈ acc ∨ .named name ∈ steps := by
  fun_induction namesBelow? acc steps with
  | case1 acc =>
    cases h
    exact .inl (List.mem_reverse.mp hname)
  | case2 => cases h
  | case3 acc steps ih =>
    rcases ih h with hacc | hsteps
    · exact .inl hacc
    · exact .inr (List.mem_cons_of_mem _ hsteps)
  | case4 acc name' steps ih =>
    rcases ih h with hacc | hsteps
    · rcases List.mem_cons.mp hacc with rfl | hacc
      · exact .inr List.mem_cons_self
      · exact .inl hacc
    · exact .inr (List.mem_cons_of_mem _ hsteps)
  | case5 => cases h
  | case6 last acc steps ih =>
    rcases ih h with hacc | hsteps
    · exact .inl (List.mem_cons_of_mem _ hacc)
    · exact .inr (List.mem_cons_of_mem _ hsteps)

theorem named_of_memberNames {m : Member} {names : List Name} (h : memberNames m = .ok names) :
    ∀ name ∈ names, Named name ∧ slash ∉ name := by
  intro name hname
  unfold memberNames at h
  split at h
  · next hbelow =>
    cases h
    split at hbelow
    · cases hbelow
    · rcases mem_of_namesBelow? hbelow hname with hacc | hsteps
      · cases hacc
      · exact named_of_mem_components hsteps
  · cases h

/-! ### One member -/

/-- A member that is a link is to be unpacked there. -/
def Links (octets : Bytes) (names : List Name) : Prop :=
  ∃ members, Zip.members octets = .ok members ∧
    ∃ m ∈ members, m.isLink = true ∧ memberNames m = .ok names

/-- A member is to be unpacked there. -/
def Holds (octets : Bytes) (names : List Name) : Prop :=
  ∃ members, Zip.members octets = .ok members ∧ ∃ m ∈ members, memberNames m = .ok names

/-- A member is to be unpacked at a place or below it. -/
def OnWay (root : Place) (octets : Bytes) (place : Place) : Prop :=
  ∃ names, Holds octets names ∧ place <+: root ++ names

theorem OnWay.above {root place above : Place} {octets : Bytes} (h : OnWay root octets place)
    (habove : above <+: place) : OnWay root octets above := by
  obtain ⟨names, hholds, hplace⟩ := h
  exact ⟨names, hholds, habove.trans hplace⟩

/-- What unpacking an archive of these octets may change: something inside the directory and on the
way to a member, and a link only where one is to be unpacked. -/
def Unpacks (root : Place) (octets : Bytes) (place : Place) (node : Option Node) : Prop :=
  root <+: place ∧ OnWay root octets place ∧ ∀ target, node = some (.link target) →
    ∃ names, Links octets names ∧ place = root ++ names

theorem unpacks_dir {root place : Place} {octets : Bytes} (h : root <+: place)
    (hway : OnWay root octets place) (mode : Nat) :
    Unpacks root octets place (some (.dir mode)) :=
  ⟨h, hway, fun target heq => by cases heq⟩

theorem unpacks_file {root place : Place} {octets : Bytes} (h : root <+: place)
    (hway : OnWay root octets place) (content : Bytes) :
    Unpacks root octets place (some (.file content)) :=
  ⟨h, hway, fun target heq => by cases heq⟩

section

variable {d₀ : Disk} {root place : Place} {octets : Bytes} {name : Name}
  {names : List Name} (hd₀ : d₀.WellFormed)

include hd₀

/-- Making a directory, none above it missing. -/
theorem ensures_makeWritableDirs (hroot : root <+: place) (hway : OnWay root octets place) :
    Ensures (fun d => Changes (Unpacks root octets) d₀ d ∧ d.Names place.path place)
      (makeWritableDirs place.path)
      (fun _ d => Changes (Unpacks root octets) d₀ d ∧ d.HasDir place)
      (fun _ => Changes (Unpacks root octets) d₀) := by
  have hmake : Ensures (fun d => Changes (Unpacks root octets) d₀ d ∧ d.Names place.path place)
      (makeDirs place.path) (fun _ d => Changes (Unpacks root octets) d₀ d ∧ d.HasDir place)
      (fun _ => Changes (Unpacks root octets) d₀) := by
    refine ensures_makeDirs (path_ne_nil place) ?_ ?_ (fun d hd => hd.2.not_missing)
      fun d e hd => hd.1
    · rintro d spot ⟨hd, hnames⟩ hl hnone
      have hplace := hnames.place_eq hl
      have hmade := hd.put_vacant (hd.wellFormed hd₀) hl hnone
        (unpacks_dir (hplace ▸ hroot) (hplace ▸ hway) plainMode)
      rw [hplace] at hmade hnone ⊢
      exact ⟨hmade, plainMode, find?_put_self (ne_nil_of_vacant hnone)⟩
    · rintro d ⟨hd, hnames⟩ hisDir
      obtain ⟨there, hl, hdir⟩ := exists_of_isDir hisDir
      have hplace : there = place := hnames.place_eq hl
      exact ⟨hd, hplace ▸ hdir⟩
  refine ensures_bind (ensures_adapt hmake) fun _ => ?_
  refine ensures_bind (ensures_adapt (ensures_status fun d e hd => hd.1)) fun ⟨there, node⟩ => ?_
  cases node with
  | file content => exact ensures_pure fun d hd => hd.1
  | link target => exact ensures_pure fun d hd => hd.1
  | dir mode =>
    refine ensures_adapt (ensures_setMode ?_ (fun d _ _ hd _ _ _ => hd.1) fun d e hd => hd.1.1)
    rintro d there' old ⟨⟨hd, hdir⟩, -⟩ hl hold
    have hplace : there' = place :=
      (names_path (hd.wellFormed hd₀) hdir.firm).place_eq hl
    have hset : Changes (Unpacks root octets) d (d.put there' (.dir (mode ||| 0o700))) :=
      Changes.refl.put_mode hold (unpacks_dir (hplace ▸ hroot) (hplace ▸ hway) _)
    exact ⟨hd.trans hset, hset.hasDir hdir⟩

omit hd₀ in
theorem path_concat {d : Disk} (hwf : d.WellFormed) (hfirm : d.Firm place) (hs : slash ∉ name) :
    join place.path name = Place.path (place ++ [name]) := by
  obtain ⟨node, hfind, -⟩ := hfirm
  refine join_path (fun n hn => ?_) hs
  obtain ⟨hnamed, hslash⟩ := hwf.named hfind n hn
  exact ⟨fun h => hnamed.ne_blank (.inl h), hslash⟩

/-- Once a place is settled its path names it, and unless it is the last one something is there. -/
theorem ensures_settle (last : Bool) (hroot : root <+: place)
    (hway : OnWay root octets (place ++ [name])) (hn : Named name) (hs : slash ∉ name) :
    Ensures (fun d => Changes (Unpacks root octets) d₀ d ∧ d.Firm place)
      (settle last (Place.path (place ++ [name])))
      (fun _ d => Changes (Unpacks root octets) d₀ d ∧
        d.Names (Place.path (place ++ [name])) (place ++ [name]) ∧
        (last = false → d.Firm (place ++ [name])))
      (fun _ => Changes (Unpacks root octets) d₀) := by
  have hget : Ensures (fun d => Changes (Unpacks root octets) d₀ d ∧ d.Firm place)
      (get : Unpacking Disk)
      (fun now d => now = d ∧ Changes (Unpacks root octets) d₀ d ∧ d.Firm place)
      (fun _ => Changes (Unpacks root octets) d₀) :=
    ensures_get fun d hd => ⟨rfl, hd⟩
  have hnames : ∀ {d : Disk}, Changes (Unpacks root octets) d₀ d → d.Firm place →
      (∀ target, d.find? (place ++ [name]) ≠ some (.link target)) →
      d.Names (Place.path (place ++ [name])) (place ++ [name]) := by
    intro d hd hfirm hlink
    have hwf := hd.wellFormed hd₀
    rw [← path_concat hwf hfirm hs]
    exact (leads_path hwf hfirm).names_join hn hs hlink
  refine ensures_bind hget fun now => ?_
  split
  · next hmissing =>
    have hnone : ∀ {d : Disk}, now = d → Changes (Unpacks root octets) d₀ d → d.Firm place →
        d.find? (place ++ [name]) = none := by
      rintro d rfl hd hfirm
      have hwf := hd.wellFormed hd₀
      rw [← path_concat hwf hfirm hs] at hmissing
      exact ((leads_path hwf hfirm).status_name hn hs).1 hmissing
    cases last with
    | true =>
      refine ensures_pure ?_
      rintro d ⟨heq, hd, hfirm⟩
      refine ⟨hd, hnames hd hfirm ?_, by simp⟩
      simp [hnone heq hd hfirm]
    | false =>
      have hinside : root <+: place ++ [name] := hroot.trans (List.prefix_append ..)
      refine (ensures_makeWritableDirs hd₀ hinside hway).weaken ?_ ?_ fun e d hd => hd
      · rintro d ⟨heq, hd, hfirm⟩
        refine ⟨hd, hnames hd hfirm ?_⟩
        simp [hnone heq hd hfirm]
      · rintro _ d ⟨hd, hdir⟩
        exact ⟨hd, names_path (hd.wellFormed hd₀) hdir.firm, fun _ => hdir.firm⟩
  · exact ensures_throw fun d hd => hd.2.1
  · exact ensures_throw fun d hd => hd.2.1
  · next found hno hfound =>
    obtain ⟨there, node⟩ := found
    refine ensures_pure ?_
    rintro d ⟨rfl, hd, hfirm⟩
    have hwf := hd.wellFormed hd₀
    rw [← path_concat hwf hfirm hs] at hfound
    obtain ⟨-, hfind⟩ := ((leads_path hwf hfirm).status_name hn hs).2 _ hfound
    have hnode : ∀ target, node ≠ .link target := by
      rintro target rfl
      exact hno there target rfl
    have hthere : now.Firm (place ++ [name]) := ⟨node, hfind, hnode⟩
    exact ⟨hd, names_path hwf hthere, fun _ => hthere⟩

/-- The path that a member is unpacked to names the place of its names below the directory. -/
theorem ensures_preparePath {names : List Name} (hroot : root <+: place)
    (hway : OnWay root octets (place ++ names))
    (hnames : ∀ name ∈ names, Named name ∧ slash ∉ name) :
    Ensures (fun d => Changes (Unpacks root octets) d₀ d ∧ d.Firm place)
      (preparePath place.path names)
      (fun path d => Changes (Unpacks root octets) d₀ d ∧ path = Place.path (place ++ names) ∧
        d.Names path (place ++ names))
      (fun _ => Changes (Unpacks root octets) d₀) := by
  induction names generalizing place with
  | nil =>
    refine ensures_pure ?_
    rintro d ⟨hd, hfirm⟩
    rw [List.append_nil]
    exact ⟨hd, rfl, names_path (hd.wellFormed hd₀) hfirm⟩
  | cons name names ih =>
    obtain ⟨⟨hn, hs⟩, hrest⟩ := List.forall_mem_cons.mp hnames
    intro d hd
    rw [preparePath, path_concat (hd.1.wellFormed hd₀) hd.2 hs]
    revert d
    rw [List.append_cons] at hway
    have hnext : OnWay root octets (place ++ [name]) := hway.above (List.prefix_append ..)
    refine ensures_bind (ensures_settle hd₀ names.isEmpty hroot hnext hn hs) fun _ => ?_
    have hinside : root <+: place ++ [name] := hroot.trans (List.prefix_append ..)
    cases names with
    | nil =>
      refine ensures_pure ?_
      rintro d ⟨hd, hpath, -⟩
      exact ⟨hd, rfl, hpath⟩
    | cons next names =>
      have hih := ih hinside hway hrest
      rw [List.append_assoc, List.singleton_append] at hih
      refine hih.of_pre ?_
      rintro d ⟨hd, -, hfirm⟩
      exact ⟨hd, hfirm rfl⟩

/-- **Unpacking a member changes nothing outside the directory.** -/
theorem ensures_extractMember (hroot : d₀.HasDir root) (archive : Place) {members : List Member}
    (hmembers : Zip.members octets = .ok members) {m : Member} (hm : m ∈ members) :
    Ensures (Changes (Unpacks root octets) d₀) (extractMember archive root.path m)
      (fun _ => Changes (Unpacks root octets) d₀) (fun _ => Changes (Unpacks root octets) d₀) := by
  have hread : ∀ {α : Type} {P : Disk → Prop} (view : Bytes → Except Fault α),
      (∀ d, P d → Changes (Unpacks root octets) d₀ d) →
      Ensures P (look fun d => view (d.content archive)) (fun _ => P)
        (fun _ => Changes (Unpacks root octets) d₀) :=
    fun view hP => ensures_look (fun d x hd _ => hd) fun d e hd _ => hP d hd
  have hreadable : Ensures (Changes (Unpacks root octets) d₀)
      (liftM m.readable : Unpacking Unit) (fun _ => Changes (Unpacks root octets) d₀)
      (fun _ => Changes (Unpacks root octets) d₀) :=
    ensures_liftM (fun d x hd _ => hd) fun d e hd _ => hd
  have hmemberNames : Ensures (Changes (Unpacks root octets) d₀)
      (liftM (memberNames m) : Unpacking (List Name))
      (fun names d => memberNames m = .ok names ∧ Changes (Unpacks root octets) d₀ d)
      (fun _ => Changes (Unpacks root octets) d₀) :=
    ensures_liftM (fun d names hd hnames => ⟨hnames, hd⟩) fun d e hd _ => hd
  unfold extractMember
  refine ensures_bind hreadable fun _ => ?_
  refine ensures_bind (hread m.start fun d hd => hd) fun start => ?_
  refine ensures_bind_fact hmemberNames fun names hnames => ?_
  have hinside : root <+: root ++ names := List.prefix_append ..
  have hway : OnWay root octets (root ++ names) :=
    ⟨names, ⟨members, hmembers, m, hm, hnames⟩, List.prefix_refl _⟩
  refine ensures_bind ((ensures_preparePath hd₀ (List.prefix_refl root) hway
    (named_of_memberNames hnames)).of_pre fun d hd => ⟨hd, (hd.hasDir hroot).firm⟩) fun path => ?_
  split
  · next hlink =>
    refine ensures_bind (hread (m.data start) fun d hd => hd.1) fun target => ?_
    split
    · exact ensures_throw fun d hd => hd.1
    · refine ensures_adapt (ensures_link ?_ fun d e hd => hd.1)
      rintro d spot ⟨hd, -, hplace⟩ hl hnone
      refine hd.put_vacant (hd.wellFormed hd₀) hl hnone ?_
      rw [hplace.place_eq hl]
      exact ⟨hinside, hway, fun _ _ => ⟨names, ⟨members, hmembers, m, hm, hlink, hnames⟩, rfl⟩⟩
  · split
    · intro d hd
      rw [hd.2.1]
      revert d
      refine (ensures_makeWritableDirs hd₀ hinside hway).weaken ?_ (fun _ d hd => hd.1)
        fun e d hd => hd
      rintro d ⟨hd, rfl, hplace⟩
      exact ⟨hd, hplace⟩
    · have hcreate : Ensures (fun d => Changes (Unpacks root octets) d₀ d ∧
            path = Place.path (root ++ names) ∧ d.Names path (root ++ names)) (create path)
          (fun there d => Changes (Unpacks root octets) d₀ d ∧
            (root <+: there ∧ OnWay root octets there) ∧
            ∃ content, d.find? there = some (.file content))
          (fun _ => Changes (Unpacks root octets) d₀) := by
        refine ensures_create ?_ fun d e hd => hd.1
        rintro d spot ⟨hd, -, hplace⟩ hl hno
        have hspot := hplace.place_eq hl
        exact ⟨hd.put_file (hd.wellFormed hd₀) hl hno
            (unpacks_file (hspot ▸ hinside) (hspot ▸ hway) []),
          hspot ▸ ⟨hinside, hway⟩, [], find?_put_self (ne_nil_of_not_hasDir hno)⟩
      refine ensures_bind (ensures_adapt hcreate) fun there => ?_
      refine ensures_bind (hread (m.data start) fun d hd => hd.1) fun bytes => ?_
      refine ensures_adapt (ensures_putAt ?_)
      rintro d ⟨hd, ⟨hthere, hway⟩, content, hfile⟩
      exact hd.put_content hfile (unpacks_file hthere hway bytes)

/-- **Unpacking an archive changes nothing outside the directory.** -/
theorem ensures_extract (archive : Place) {path : Path} (hpath : d₀.Leads path root)
    (hroot : d₀.HasDir root) :
    Ensures (· = d₀) (extract archive path)
      (fun _ => Changes (Unpacks root (d₀.content archive)) d₀)
      (fun _ => Changes (Unpacks root (d₀.content archive)) d₀) := by
  have hmembers : Ensures (· = d₀) (look fun d => Zip.members (d.content archive))
      (fun members d => Zip.members (d₀.content archive) = .ok members ∧ d = d₀)
      (fun _ => Changes (Unpacks root (d₀.content archive)) d₀) := by
    refine ensures_look ?_ ?_
    · rintro d members rfl hm
      exact ⟨hm, rfl⟩
    · rintro d e rfl -
      exact .refl
  refine ensures_bind hmembers fun members => ?_
  have hcanonical : Ensures (fun d => Zip.members (d₀.content archive) = .ok members ∧ d = d₀)
      (look (·.canonical path))
      (fun place d => (Zip.members (d₀.content archive) = .ok members ∧ d = d₀) ∧ place = root)
      (fun (_ : FileFault) => Changes (Unpacks root (d₀.content archive)) d₀) := by
    refine (ensures_canonical ?_).to_post ?_
    · rintro d e ⟨-, rfl⟩
      exact .refl
    · rintro place d ⟨⟨hm, rfl⟩, hl, -⟩
      have hspot := hpath.reached.symm.trans (resolve_of_locate hl).2
      cases hspot
      exact ⟨⟨hm, rfl⟩, rfl⟩
  refine ensures_bind (ensures_adapt hcanonical) fun place => ?_
  rintro d ⟨⟨hm, rfl⟩, rfl⟩
  refine (ensures_forM fun m hmem => ?_) d .refl
  exact ensures_extractMember hd₀ hroot archive hm hmem

end

end Zip

end ImageScoring
