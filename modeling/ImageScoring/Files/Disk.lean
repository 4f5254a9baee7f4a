import ImageScoring.Files.Path

/-!
# Disks

A disk holds files, symbolic links and directories, each at a place: the names from the root down.
This module says how single places are looked up and changed and how a whole tree is listed or
erased; what a path leads to is the matter of `ImageScoring.Files.Resolve`.

Main statements: a change shows at its own place (`find?_put_self`) and nowhere else
(`find?_put_of_ne`), and erasing a tree leaves what lies outside it (`find?_eraseTree_of_outside`)
and nothing inside (`find?_eraseTree_of_inside`).
-/

namespace ImageScoring

/-- Where something lies: the names from the root down. -/
abbrev Place := List Name

/-- What lies at a place. -/
inductive Node where
  | file (content : Bytes)
  | link (target : Path)
  /-- A directory and its permissions. -/
  | dir (mode : Nat)
  deriving DecidableEq, Repr

/-- What lies where, and the directory that relative paths begin at. The root is always a
directory. -/
structure Disk where
  entries : List (Place × Node) := []
  current : Place := []
  deriving DecidableEq, Repr

namespace Disk

/-- The permissions of a directory that is made with none in particular. -/
def plainMode : Nat := 0o755

/-- What lies at a place. -/
def find? (d : Disk) (place : Place) : Option Node :=
  if place = [] then some (.dir plainMode) else d.entries.lookup place

/-- The disk with something put at a place, whatever was there before. -/
def put (d : Disk) (place : Place) (node : Node) : Disk :=
  { d with entries := (place, node) :: d.entries.filter (·.1 != place) }

/-- The disk with nothing at a place. -/
def erase (d : Disk) (place : Place) : Disk :=
  { d with entries := d.entries.filter (·.1 != place) }

/-- The disk with nothing at a place or below it. -/
def eraseTree (d : Disk) (place : Place) : Disk :=
  { d with entries := d.entries.filter fun e => !place.isPrefixOf e.1 }

/-- What lies below a place, seen from there. -/
def below (d : Disk) (place : Place) : List (Place × Node) :=
  d.entries.filterMap fun e =>
    if place.isPrefixOf e.1 && e.1 != place then some (e.1.drop place.length, e.2) else none

/-- The order of byte strings. -/
def nameLe : Name → Name → Bool
  | [], _ => true
  | _ :: _, [] => false
  | a :: as, b :: bs => a < b || (a == b && nameLe as bs)

/-- The order in which a tree is listed: a directory before what is in it, names as byte strings. -/
def placeLe : Place → Place → Bool
  | [], _ => true
  | _ :: _, [] => false
  | a :: as, b :: bs => if a = b then placeLe as bs else nameLe a b

/-- What lies below a place, in order. -/
def tree (d : Disk) (place : Place) : List (Place × Node) :=
  (d.below place).mergeSort fun a b => placeLe a.1 b.1

/-! ### What a change shows -/

theorem lookup_filter {p : Place → Bool} {entries : List (Place × Node)} {place : Place}
    (h : p place = true) :
    (entries.filter fun e => p e.1).lookup place = entries.lookup place := by
  induction entries with
  | nil => rfl
  | cons e entries ih =>
    obtain ⟨other, node⟩ := e
    by_cases he : place = other
    · subst he
      simp [h]
    · have hne : (place == other) = false := by simpa using he
      rw [List.lookup_cons, hne]
      by_cases hp : p other = true
      · rw [List.filter_cons_of_pos (by exact hp), List.lookup_cons, hne]
        exact ih
      · rw [List.filter_cons_of_neg (by exact hp)]
        exact ih

theorem lookup_filter_eq_none {p : Place → Bool} {entries : List (Place × Node)} {place : Place}
    (h : p place = false) : (entries.filter fun e => p e.1).lookup place = none := by
  induction entries with
  | nil => rfl
  | cons e entries ih =>
    obtain ⟨other, node⟩ := e
    by_cases hp : p other = true
    · have hne : (place == other) = false := by
        simp only [beq_eq_false_iff_ne, ne_eq]
        rintro rfl
        simp [h] at hp
      rw [List.filter_cons_of_pos (by exact hp), List.lookup_cons, hne]
      exact ih
    · rw [List.filter_cons_of_neg (by exact hp)]
      exact ih

theorem find?_put_self {d : Disk} {place : Place} {node : Node} (h : place ≠ []) :
    (d.put place node).find? place = some node := by
  simp [find?, put, h]

theorem find?_put_of_ne {d : Disk} {place other : Place} {node : Node} (h : other ≠ place) :
    (d.put place node).find? other = d.find? other := by
  have hb : (other == place) = false := by simpa using h
  have hp : (other != place) = true := by simpa using h
  simp only [find?, put, List.lookup_cons, hb]
  split
  · rfl
  · exact lookup_filter (p := (· != place)) hp

theorem find?_eraseTree_of_inside {d : Disk} {root place : Place} (hne : place ≠ [])
    (h : root.isPrefixOf place = true) : (d.eraseTree root).find? place = none := by
  simp only [find?, eraseTree, hne, if_false]
  exact lookup_filter_eq_none (p := fun q => !root.isPrefixOf q) (by simp [h])

theorem find?_eraseTree_of_outside {d : Disk} {root place : Place}
    (h : root.isPrefixOf place = false) : (d.eraseTree root).find? place = d.find? place := by
  simp only [find?, eraseTree]
  split
  · rfl
  · exact lookup_filter (p := fun q => !root.isPrefixOf q) (by simp [h])

end Disk

end ImageScoring
