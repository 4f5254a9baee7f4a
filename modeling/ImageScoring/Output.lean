import ImageScoring.Bytes

/-!
# Outputs

An output keeps what is written to it. It may accept only so many octets in all; the write that
crosses that limit keeps the part that fits and fails, and so does every later one that writes
anything.
-/

namespace ImageScoring

/-- What has been written, how many octets are still accepted, `none` for any number, and what a
write that does not fit is refused with. -/
structure Output where
  written : Bytes := []
  room : Option Nat := none
  refusal : String := "sink full"
  deriving DecidableEq, Repr

namespace Output

/-- Whether that many octets are still accepted. -/
def accepts (o : Output) (count : Nat) : Bool :=
  match o.room with
  | none => true
  | some room => count ≤ room

/-- Writes what fits, and tells whether that was all. -/
def write (o : Output) (bytes : Bytes) : Output × Bool :=
  match o.room with
  | none => ({ o with written := o.written ++ bytes }, true)
  | some room =>
    ({ o with written := o.written ++ bytes.take room, room := some (room - bytes.length) },
      o.accepts bytes.length)

/-- Writes one piece after the other, up to the first that does not fit. -/
def writeAll (o : Output) : List Bytes → Output × Bool
  | [] => (o, true)
  | piece :: pieces =>
    match o.write piece with
    | (o, true) => o.writeAll pieces
    | (o, false) => (o, false)

end Output

end ImageScoring
