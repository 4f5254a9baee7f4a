import ImageScoring.Proofs.Files.Change

/-!
# The names of a path

Splitting a path that was joined of two gives the names of both (`exists_splitFrom_join`), and the
path of a place splits into the names of that place. Where no link is met, names lead to a place
that can be told without the disk (`walk`), past places that can be told as well (`passes`). Names
that never climb above the directory they begin at stay inside it (`walk_of_staysBelow`,
`passes_of_staysBelow`).
-/

namespace ImageScoring.Path

/-! ### Splitting -/

theorem splitFrom_append (acc a b : Bytes) :
    splitFrom acc (a ++ slash :: b) = splitFrom acc a ++ splitFrom [] b := by
  induction a generalizing acc with
  | nil => simp [splitFrom]
  | cons c a ih =>
    rw [List.cons_append, splitFrom, splitFrom]
    split
    · rw [ih, List.cons_append]
    · exact ih _

theorem splitFrom_of_notMem {acc name : Bytes} (h : slash ∉ name) :
    splitFrom acc name = [acc.reverse ++ name] := by
  induction name generalizing acc with
  | nil => simp [splitFrom]
  | cons c name ih =>
    obtain ⟨hc, hname⟩ := List.ne_and_not_mem_of_not_mem_cons h
    rw [splitFrom, if_neg (Ne.symm hc), ih hname]
    simp

theorem splitFrom_ne_nil (acc path : Bytes) : splitFrom acc path ≠ [] := by
  induction path generalizing acc with
  | nil => simp [splitFrom]
  | cons c path ih =>
    rw [splitFrom]
    split
    · simp
    · exact ih _

/-- No slash stands in a name. -/
theorem slash_notMem_of_mem_splitFrom {acc path name : Bytes} (hacc : slash ∉ acc)
    (h : name ∈ splitFrom acc path) : slash ∉ name := by
  induction path generalizing acc with
  | nil =>
    rw [splitFrom, List.mem_singleton] at h
    rwa [h, List.mem_reverse]
  | cons c path ih =>
    rw [splitFrom] at h
    split at h
    · rcases List.mem_cons.mp h with rfl | h
      · rwa [List.mem_reverse]
      · exact ih List.not_mem_nil h
    · next hc =>
      refine ih ?_ h
      rw [List.mem_cons, not_or]
      exact ⟨Ne.symm hc, hacc⟩

/-! ### Joining -/

theorem isAbsolute_join {base rel : Path} (hbase : base ≠ []) (hrel : rel.isAbsolute = false) :
    (join base rel).isAbsolute = base.isAbsolute := by
  obtain ⟨b, base, rfl⟩ := List.exists_cons_of_ne_nil hbase
  rw [join, hrel]
  split
  · contradiction
  · split <;> rfl

theorem join_ne_nil {base rel : Path} (hbase : base ≠ []) (hrel : rel.isAbsolute = false) :
    join base rel ≠ [] := by
  rw [join, hrel]
  split
  · contradiction
  · split
    · simp [hbase]
    · simp

/-- The names of a path that was joined of two. A slash that ends the first one does not count. -/
theorem exists_splitFrom_join {base rel : Path} (hbase : base ≠ [])
    (hrel : rel.isAbsolute = false) :
    ∃ names, splitFrom [] (join base rel) = names ++ splitFrom [] rel ∧
      (splitFrom [] base = names ∨ splitFrom [] base = names ++ [[]]) := by
  rw [join, hrel]
  by_cases hlast : base.getLast? = some slash
  · obtain ⟨base, rfl⟩ := List.getLast?_eq_some_iff.mp hlast
    refine ⟨splitFrom [] base, ?_, .inr ?_⟩
    · simp [splitFrom_append]
    · rw [splitFrom_append, splitFrom, List.reverse_nil]
  · refine ⟨splitFrom [] base, ?_, .inl rfl⟩
    simp [hbase, hlast, splitFrom_append]

theorem isAbsolute_of_notMem {name : Name} (h : slash ∉ name) : isAbsolute name = false := by
  cases name with
  | nil => rfl
  | cons c name =>
    have hc : c ≠ slash := (List.ne_of_not_mem_cons h).symm
    simpa [isAbsolute] using hc

/-! ### Steps -/

/-- The names that lead somewhere: an empty one and a dot do not. -/
def stepsOf (names : List Name) : List Name :=
  names.filter fun name => name ≠ [] ∧ name ≠ dot

/-- The names by which a path leads somewhere. -/
def steps (path : Path) : List Name :=
  stepsOf (splitFrom [] path)

/-- A name that is looked up in a directory. -/
structure Named (name : Name) : Prop where
  ne_blank : ¬(name = [] ∨ name = dot)
  ne_dotDot : name ≠ dotDot

theorem stepsOf_append (names more : List Name) :
    stepsOf (names ++ more) = stepsOf names ++ stepsOf more :=
  List.filter_append ..

theorem stepsOf_cons_of_blank {name : Name} (h : name = [] ∨ name = dot) (rest : List Name) :
    stepsOf (name :: rest) = stepsOf rest := by
  refine List.filter_cons_of_neg ?_
  rcases h with rfl | rfl <;> simp

theorem stepsOf_cons {name : Name} (h : ¬(name = [] ∨ name = dot)) (rest : List Name) :
    stepsOf (name :: rest) = name :: stepsOf rest := by
  refine List.filter_cons_of_pos ?_
  simpa using not_or.mp h

theorem stepsOf_of_named {names : List Name} (h : ∀ name ∈ names, Named name) :
    stepsOf names = names := by
  refine List.filter_eq_self.mpr fun name hname => ?_
  simpa using not_or.mp (h name hname).ne_blank

/-- A name without a slash is a path of one step. -/
theorem steps_of_named {name : Name} (hname : Named name) (hslash : slash ∉ name) :
    steps name = [name] := by
  rw [steps, splitFrom_of_notMem hslash, List.reverse_nil, List.nil_append]
  exact stepsOf_of_named fun n hn => List.mem_singleton.mp hn ▸ hname

/-- The names that steps hold are looked up in directories. -/
theorem named_of_mem_components {path : Path} {name : Name}
    (h : .named name ∈ path.components) : Named name ∧ slash ∉ name := by
  have hmem : .named name ∈ (splitFrom [] path).filterMap component? := by
    unfold components at h
    dsimp only at h
    split at h
    · simpa using h
    · split at h
      · simpa using h
      · exact h
  obtain ⟨n, hn, hcomponent⟩ := List.mem_filterMap.mp hmem
  have hslash : slash ∉ n := slash_notMem_of_mem_splitFrom List.not_mem_nil hn
  unfold component? at hcomponent
  split at hcomponent
  · cases hcomponent
  · next hblank =>
    split at hcomponent
    · cases hcomponent
    · next hup =>
      cases hcomponent
      exact ⟨⟨hblank, hup⟩, hslash⟩

/-! ### The path of a place -/

theorem path_ne_nil (place : Place) : place.path ≠ [] := by
  cases place with
  | nil => simp [Place.path]
  | cons name place => simp [Place.path]

theorem isAbsolute_path (place : Place) : isAbsolute place.path = true := by
  cases place with
  | nil => rfl
  | cons name place => simp [Place.path, isAbsolute]

/-- The names of the path of a place are its own, behind the slash that it begins with. -/
theorem splitFrom_path {place : Place} (hne : place ≠ []) (h : ∀ name ∈ place, slash ∉ name) :
    splitFrom [] place.path = [] :: place := by
  -- The octets before the first slash are a name of their own; it is empty at the beginning.
  have hflat : ∀ acc : Bytes, slash ∉ acc →
      splitFrom [] (acc ++ place.flatMap (slash :: ·)) = acc :: place := by
    clear hne
    induction place with
    | nil =>
      intro acc hacc
      simp [splitFrom_of_notMem hacc]
    | cons name place ih =>
      intro acc hacc
      obtain ⟨hslash, hrest⟩ := List.forall_mem_cons.mp h
      rw [List.flatMap_cons, List.cons_append, splitFrom_append, splitFrom_of_notMem hacc,
        ih hrest name hslash, List.reverse_nil, List.nil_append, List.singleton_append]
  obtain ⟨name, rest, rfl⟩ := List.exists_cons_of_ne_nil hne
  exact hflat [] List.not_mem_nil

/-- The steps of the path of a place are its names. -/
theorem steps_path {place : Place} (h : ∀ name ∈ place, Named name ∧ slash ∉ name) :
    steps place.path = place := by
  by_cases hne : place = []
  · subst hne
    rfl
  · rw [steps, splitFrom_path hne fun n hn => (h n hn).2, stepsOf_cons_of_blank (.inl rfl)]
    exact stepsOf_of_named fun n hn => (h n hn).1

/-- Going down by a name from the path of a place. -/
theorem join_path {place : Place} {name : Name} (hplace : ∀ n ∈ place, n ≠ [] ∧ slash ∉ n)
    (hname : slash ∉ name) : join place.path name = Place.path (place ++ [name]) := by
  rw [join, if_neg (by simp [isAbsolute_of_notMem hname])]
  cases place using List.reverseRecOn with
  | nil => simp [Place.path, slash]
  | append_singleton place last _ =>
    obtain ⟨hne, hslash⟩ := hplace last (by simp)
    have hpath : ∀ more : List Name, Place.path (place ++ last :: more) =
        (place ++ last :: more).flatMap (slash :: ·) := by
      intro more
      cases place <;> rfl
    have hlast : (Place.path (place ++ [last])).getLast? ≠ some slash := by
      have hend : (Place.path (place ++ [last])).getLast? = last.getLast? := by
        rw [hpath, List.flatMap_append, List.flatMap_singleton, List.getLast?_append,
          List.getLast?_cons]
        cases hl : last.getLast? with
        | none => exact absurd (List.getLast?_eq_none_iff.mp hl) hne
        | some c => rfl
      rw [hend]
      exact fun hl => hslash (List.mem_of_getLast? hl)
    rw [if_neg (by simp [path_ne_nil, hlast]), List.append_assoc, List.singleton_append, hpath,
      hpath]
    simp

/-! ### Where names lead -/

/-- Where names lead if no link is met. -/
def walk (here : Place) : List Name → Place
  | [] => here
  | name :: rest =>
    if name = dotDot then walk here.dropLast rest else walk (here ++ [name]) rest

/-- The places where something is looked up on that way, the first one first. -/
def passes (here : Place) : List Name → List Place
  | [] => []
  | name :: rest =>
    if name = dotDot then passes here.dropLast rest
    else (here ++ [name]) :: passes (here ++ [name]) rest

/-- Names that begin `depth` levels down and never lead above the first of these levels. -/
def staysBelow (depth : Nat) : List Name → Bool
  | [] => true
  | name :: rest =>
    if name = dotDot then depth != 0 && staysBelow (depth - 1) rest
    else staysBelow (depth + 1) rest

theorem passes_append (here : Place) (names more : List Name) :
    passes here (names ++ more) = passes here names ++ passes (walk here names) more := by
  induction names generalizing here with
  | nil => rfl
  | cons name names ih =>
    rw [List.cons_append, passes, passes, walk]
    split
    · exact ih _
    · rw [ih, List.cons_append]

theorem staysBelow_of_append {depth : Nat} {names more : List Name}
    (h : staysBelow depth (names ++ more) = true) : staysBelow depth names = true := by
  induction names generalizing depth with
  | nil => rfl
  | cons name names ih =>
    rw [List.cons_append, staysBelow] at h
    rw [staysBelow]
    split at h
    · next hup =>
      rw [if_pos hup]
      obtain ⟨hdepth, hrest⟩ := Bool.and_eq_true_iff.mp h
      exact Bool.and_eq_true_iff.mpr ⟨hdepth, ih hrest⟩
    · next hup =>
      rw [if_neg hup]
      exact ih h

/-- A name of its own leads one level down. -/
theorem walk_of_named {names : List Name} (h : ∀ name ∈ names, Named name) (here : Place) :
    walk here names = here ++ names := by
  induction names generalizing here with
  | nil => rw [walk, List.append_nil]
  | cons name names ih =>
    obtain ⟨hname, hrest⟩ := List.forall_mem_cons.mp h
    rw [walk, if_neg hname.ne_dotDot, ih hrest, List.append_assoc, List.singleton_append]

/-- Names of their own lead past the levels between. -/
theorem exists_prefix_of_mem_passes {names : List Name} (h : ∀ name ∈ names, Named name)
    {here place : Place} (hp : place ∈ passes here names) :
    ∃ above, above ≠ [] ∧ above <+: names ∧ place = here ++ above := by
  induction names generalizing here with
  | nil => cases hp
  | cons name names ih =>
    obtain ⟨hname, hrest⟩ := List.forall_mem_cons.mp h
    rw [passes, if_neg hname.ne_dotDot] at hp
    rcases List.mem_cons.mp hp with rfl | hp
    · exact ⟨[name], by simp, by simp, rfl⟩
    · obtain ⟨above, -, hwithin, rfl⟩ := ih hrest hp
      exact ⟨name :: above, by simp, List.cons_prefix_cons.mpr ⟨rfl, hwithin⟩, by simp⟩

/-- What stays below where it begins is the same seen from wherever that is. -/
theorem walk_of_staysBelow (root here : Place) {names : List Name}
    (h : staysBelow here.length names = true) :
    walk (root ++ here) names = root ++ walk here names := by
  induction names generalizing here with
  | nil => rfl
  | cons name names ih =>
    rw [staysBelow] at h
    rw [walk, walk]
    split at h
    · next hup =>
      rw [if_pos hup, if_pos hup]
      obtain ⟨hdepth, hrest⟩ := Bool.and_eq_true_iff.mp h
      have hne : here ≠ [] := by
        rintro rfl
        simp at hdepth
      rw [List.dropLast_append_of_ne_nil hne]
      exact ih here.dropLast (by rwa [List.length_dropLast])
    · next hup =>
      rw [if_neg hup, if_neg hup, List.append_assoc]
      exact ih (here ++ [name]) (by rwa [List.length_append])

theorem passes_of_staysBelow (root here : Place) {names : List Name}
    (h : staysBelow here.length names = true) :
    passes (root ++ here) names = (passes here names).map (root ++ ·) := by
  induction names generalizing here with
  | nil => rfl
  | cons name names ih =>
    rw [staysBelow] at h
    rw [passes, passes]
    split at h
    · next hup =>
      rw [if_pos hup, if_pos hup]
      obtain ⟨hdepth, hrest⟩ := Bool.and_eq_true_iff.mp h
      have hne : here ≠ [] := by
        rintro rfl
        simp at hdepth
      rw [List.dropLast_append_of_ne_nil hne]
      exact ih here.dropLast (by rwa [List.length_dropLast])
    · next hup =>
      rw [if_neg hup, if_neg hup, List.append_assoc, List.map_cons,
        ih (here ++ [name]) (by rwa [List.length_append])]

/-- Names that never lead above where they begin lead inside, wherever that is. -/
theorem prefix_walk {names : List Name} (h : staysBelow 0 names = true) (root : Place) :
    root <+: walk root names := by
  have hwalk := walk_of_staysBelow root [] h
  rw [List.append_nil] at hwalk
  rw [hwalk]
  exact List.prefix_append ..

/-- Whatever they lead past lies inside, at the same names. -/
theorem exists_of_mem_passes {names : List Name} {root place : Place}
    (h : staysBelow 0 names = true) (hp : place ∈ passes root names) :
    ∃ rel ∈ passes [] names, place = root ++ rel := by
  have hpasses := passes_of_staysBelow root [] h
  rw [List.append_nil] at hpasses
  rw [hpasses] at hp
  obtain ⟨rel, hrel, heq⟩ := List.mem_map.mp hp
  exact ⟨rel, hrel, heq.symm⟩

end ImageScoring.Path
