import ImageScoring.Bytes

/-!
# Image payloads

The image of a request is sent as it is, or packed out of pixels of four octets each, of which the
fourth is dropped.
-/

namespace ImageScoring

/-- The image of a request. -/
inductive Payload where
  /-- An image in some file format. -/
  | encoded (bytes : Bytes)
  /-- Rows of pixels, four octets a pixel. -/
  | pixels (width height : Nat) (rgbx : Bytes)
  deriving DecidableEq, Repr

namespace Payload

/-- Why pixels cannot be packed. -/
inductive Fault where
  | sizeMismatch (width height expected actual : Nat)
  | overflow (width height : Nat)
  deriving DecidableEq, Repr

/-- The wording of a fault. -/
def Fault.message : Fault → String
  | .sizeMismatch width height expected actual =>
    "pixel buffer holds " ++ toString actual ++ " bytes, expected " ++ toString expected ++
      " for a " ++ toString width ++ "x" ++ toString height ++ " image"
  | .overflow width height =>
    toString width ++ "x" ++ toString height ++ " image is too large"

/-- One past the largest size: sizes have 64 bits. -/
def sizeLimit : Nat := 2 ^ 64

/-- The product of two sizes, unless it has more than 64 bits. -/
def product? (a b : Nat) : Option Nat :=
  if a * b < sizeLimit then some (a * b) else none

/-- The product of two sizes that is not checked: the low 64 bits of it. -/
def product (a b : Nat) : Nat :=
  a * b % sizeLimit

/-- The first three octets of every four. -/
def dropFourth : Bytes → Bytes
  | r :: g :: b :: _ :: rest => r :: g :: b :: dropFourth rest
  | _ => []

/-- Packs pixels: the buffer has to hold exactly four octets for each. -/
def pack (width height : Nat) (rgbx : Bytes) : Except Fault Bytes :=
  match (product? width height).filter fun area => (product? area 4).isSome with
  | none => .error (.overflow width height)
  | some area =>
    let expected := product area 4
    if rgbx.length = expected then .ok (dropFourth rgbx)
    else .error (.sizeMismatch width height expected rgbx.length)

/-- The octets of the image frame. -/
def bytes : Payload → Except Fault Bytes
  | .encoded bytes => .ok bytes
  | .pixels width height rgbx => pack width height rgbx

end Payload

end ImageScoring
