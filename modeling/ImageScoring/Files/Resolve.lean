import ImageScoring.Files.Disk
import ImageScoring.Files.Fault

/-!
# What paths lead to

A path is followed name by name. `Disk.descend` goes as far as no symbolic link is met, and
`Disk.resolve` follows the links, forty at most. A path that names nothing may still name the
place where something can be made: every name but the last has to be that of a directory.
-/

namespace ImageScoring

/-- Where a path ends. -/
inductive Spot where
  /-- At something. -/
  | reached (place : Place)
  /-- At nothing, but in a directory; `slash` tells that a slash follows the name. -/
  | vacant (parent : Place) (name : Name) (slash : Bool)
  deriving DecidableEq, Repr

namespace Disk

/-- The most octets of a name. -/
def nameLimit : Nat := 255

/-- One past the most octets of a path. -/
def pathLimit : Nat := 4096

/-- How many links a path may lead through. -/
def linkLimit : Nat := 40

/-- How far names lead without following a link. -/
inductive Descent where
  | ended (spot : Spot)
  /-- A link in the directory `base`, with names behind it. -/
  | link (base : Place) (target : Path) (rest : List Name)
  | stopped (fault : FileFault)
  deriving DecidableEq, Repr

/-- Goes down from the directory `here` as far as no link is met. A link that nothing follows
counts as met only where `follow` says so. -/
def descend (d : Disk) (follow : Bool) (here : Place) : List Name → Descent
  | [] => .ended (.reached here)
  | name :: rest =>
    if name = [] ∨ name = Path.dot then d.descend follow here rest
    else if name = Path.dotDot then d.descend follow here.dropLast rest
    else if nameLimit < name.length then .stopped .nameTooLong
    else
      match d.find? (here ++ [name]) with
      | none =>
        if rest.all List.isEmpty then .ended (.vacant here name !rest.isEmpty)
        else .stopped .missing
      | some (.dir _) => d.descend follow (here ++ [name]) rest
      | some (.file _) =>
        if rest.isEmpty then .ended (.reached (here ++ [name])) else .stopped .notDirectory
      | some (.link target) =>
        if rest.isEmpty && !follow then .ended (.reached (here ++ [name]))
        else .link here target rest

/-- The directory that a path begins at. -/
def start (base : Place) (path : Path) : Place :=
  if path.isAbsolute then [] else base

/-- Goes down from the directory `here`, through at most that many links. -/
def resolve (d : Disk) (follow : Bool) : (links : Nat) → (here : Place) → List Name →
    Except FileFault Spot
  | links, here, names =>
    match d.descend follow here names with
    | .ended spot => .ok spot
    | .stopped fault => .error fault
    | .link base target rest =>
      match links with
      | 0 => .error .tooManyLinks
      | links + 1 => d.resolve follow links (start base target) (Path.splitFrom [] target ++ rest)

/-- Where a path ends. A link that it ends in is followed only where `follow` says so. -/
def locate (d : Disk) (follow : Bool) (path : Path) : Except FileFault Spot :=
  if 0 ∈ path then .error .zeroOctet
  else if path = [] then .error .missing
  else if pathLimit ≤ path.length then .error .nameTooLong
  else d.resolve follow linkLimit (start d.current path) (Path.splitFrom [] path)

/-- What a path leads to, and where that lies. -/
def status (d : Disk) (follow : Bool) (path : Path) : Except FileFault (Place × Node) :=
  match d.locate follow path with
  | .error fault => .error fault
  | .ok (.vacant ..) => .error .missing
  | .ok (.reached place) =>
    match d.find? place with
    | some node => .ok (place, node)
    | none => .error .missing

/-- Whether a path leads to a directory. -/
def isDir (d : Disk) (path : Path) : Bool :=
  match d.status true path with
  | .ok (_, .dir _) => true
  | _ => false

/-- Where the thing that a path leads to lies. -/
def canonical (d : Disk) (path : Path) : Except FileFault Place :=
  (d.status true path).map (·.1)

end Disk

/-- The absolute path of a place. -/
def Place.path (place : Place) : Path :=
  match place with
  | [] => [Path.slash]
  | names => names.flatMap (Path.slash :: ·)

end ImageScoring
