import ImageScoring.Output

/-!
# Requests

A request to the worker is two frames, the image and the name of the script. A frame is its length
in four octets, most significant first, and that many octets.
-/

namespace ImageScoring.Request

/-- One past the longest frame. -/
def frameLimit : Nat := 2 ^ 32

/-- The octets of a frame. -/
def frame (content : Bytes) : Bytes :=
  Bytes.bigEndian 4 content.length ++ content

/-- The octets of a request. -/
def encode (image name : Bytes) : Bytes :=
  frame image ++ frame name

/-- Why a request cannot be written. -/
inductive Fault where
  | tooLong (length : Nat)
  /-- The output accepts no more and says so. -/
  | refused (refusal : String)
  deriving DecidableEq, Repr

/-- The wording of a fault. -/
def Fault.message : Fault → String
  | .tooLong length =>
    "frame of " ++ toString length ++ " bytes exceeds the 4-byte length prefix"
  | .refused refusal => refusal

/-- Writes a frame, its length first. -/
def writeFrame (o : Output) (content : Bytes) : Output × Except Fault Unit :=
  if content.length < frameLimit then
    match o.writeAll [Bytes.bigEndian 4 content.length, content] with
    | (o, true) => (o, .ok ())
    | (o, false) => (o, .error (.refused o.refusal))
  else (o, .error (.tooLong content.length))

/-- Writes a request, the image first. -/
def write (o : Output) (image name : Bytes) : Output × Except Fault Unit :=
  match writeFrame o image with
  | (o, .ok ()) => writeFrame o name
  | (o, .error fault) => (o, .error fault)

/-- The frame at the front of a byte string, and what follows it. -/
def frame? (bs : Bytes) : Option (Bytes × Bytes) :=
  if bs.length < 4 then none
  else
    let length := Bytes.ofBigEndian (bs.take 4)
    let content := bs.drop 4
    if content.length < length then none else some (content.take length, content.drop length)

/-- The request at the front of a byte string, and what follows it. -/
def decode? (bs : Bytes) : Option ((Bytes × Bytes) × Bytes) :=
  match frame? bs with
  | none => none
  | some (image, bs) =>
    match frame? bs with
    | none => none
    | some (name, bs) => some ((image, name), bs)

end ImageScoring.Request
