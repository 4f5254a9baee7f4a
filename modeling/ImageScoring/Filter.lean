import ImageScoring.ScriptName
import ImageScoring.Worker

/-!
# Filters

A filter scores objects. It is started with the name of a script and a bundle of scripts, which
gives it a worker of its own; for every object it reads the image out of the object's attributes,
has the worker run the script on it, writes what the worker reports back as attributes, and gives
the result as a whole number. Everything is let go of when it is finished.
-/

namespace ImageScoring

/-- The attributes of the object that is scored, kept in a store of type `ω`. -/
structure ObjectStore (ω : Type) where
  /-- The value of an attribute, `none` if the object has no such attribute. -/
  read : String → ω → ω × Except Error (Option Bytes)
  write : String → Bytes → ω → ω × Except Error Unit

/-- The attribute that holds the object's data. -/
def dataAttribute : String := ""

/-- The attributes that hold the height and the width of the image, four octets each. -/
def rowsAttribute : String := "_rows.int"

def columnsAttribute : String := "_cols.int"

/-- The attribute that holds the pixels of the image, four octets each. -/
def pixelsAttribute : String := "_rgb_image.rgbimage"

/-- The attribute that takes the result, a binary64 number in eight octets. -/
def resultAttribute : String := "_matlab_ans.double"

/-- The score of an object that could not be scored. -/
def sentinelScore : Int := -1

/-- The ends of the range of scores: they have 32 bits. -/
def leastScore : Int := -(2 ^ 31)

def greatestScore : Int := 2 ^ 31 - 1

/-- The score that a result gives: cut off toward zero, and kept within the range. -/
def score (result : Binary64) : Int :=
  result.truncate leastScore greatestScore

/-- The octets of a result. -/
def resultOctets (result : Binary64) : Bytes :=
  Bytes.littleEndian 8 result.bits

/-- A filter: its name, the name of its script, its worker, and how it deals with objects and
replies. -/
structure Filter (σ : Type) where
  name : String
  script : String
  worker : Worker σ
  replyForm : ReplyForm
  imageSource : ImageSource
  framingPolicy : FramingPolicy

namespace Filter

variable {σ ω : Type}

/-! ### Starting -/

/-- The lease of a display: the fixed one if there is one, else the first that is free. -/
def takeDisplay (programs : Programs σ) (config : Config) (s : System) :
    Except Error Lease × System :=
  match config.fixedDisplay with
  | some number => (.ok { display := number }, s)
  | none =>
    match Displays.allocate (programs.startServer s.disk) config.server config.maxDisplays
        s.displays with
    | (answer, displays) => (answer, { s with displays := displays })

/-- Starts a worker in a workspace. -/
def startWorker (programs : Programs σ) (config : Config) (workspace : Workspace) (s : System) :
    Except Error (Worker σ) × System :=
  match takeDisplay programs config s with
  | (.error e, s) => (.error e, { s with disk := workspace.remove s.disk })
  | (.ok lease, s) => Worker.spawn programs config.worker workspace lease s

/-- Starts a filter: finds the name of its script, sets a workspace up, takes a display and starts a
worker. -/
def start (programs : Programs σ) (config : Config) (filterName : String) (args : List String)
    (bundle : Bytes) (s : System) : Except Error (Filter σ) × System :=
  match ScriptName.ofArguments? args with
  | .error fault => (.error (.scriptName fault.message), s)
  | .ok script =>
    match (Workspace.bootstrap s.temporary config.sources bundle).run s.disk with
    | (.error e, disk) => (.error e, { s with disk := disk })
    | (.ok workspace, disk) =>
      match startWorker programs config workspace { s with disk := disk } with
      | (.error e, s) => (.error e, s)
      | (.ok worker, s) =>
        (.ok {
          name := filterName
          script := script
          worker := worker
          replyForm := config.replyForm
          imageSource := config.imageSource
          framingPolicy := config.framingPolicy }, s)

/-! ### Reading the image -/

/-- The value of an attribute that has to be there. -/
def required (store : ObjectStore ω) (name : String) (object : ω) : ω × Except Error Bytes :=
  match store.read name object with
  | (object, .error e) => (object, .error e)
  | (object, .ok none) => (object, .error (.badAttribute name "is missing"))
  | (object, .ok (some value)) => (object, .ok value)

/-- The size that four octets hold, least significant first: a number of 32 bits with a sign, which
may not be negative. -/
def dimension? (name : String) (value : Bytes) : Except Error Nat :=
  if value.length ≠ 4 then
    .error (.badAttribute name ("has " ++ toString value.length ++ " bytes, expected 4"))
  else
    let n := Bytes.ofLittleEndian value
    if n < 2 ^ 31 then .ok n
    else .error (.badAttribute name ("is negative (" ++ toString ((n : Int) - 2 ^ 32) ++ ")"))

/-- The size that an attribute holds. -/
def readDimension (store : ObjectStore ω) (name : String) (object : ω) : ω × Except Error Nat :=
  match required store name object with
  | (object, .error e) => (object, .error e)
  | (object, .ok value) => (object, dimension? name value)

/-- The image as the object's attributes hold it. -/
def readPayload (source : ImageSource) (store : ObjectStore ω) (object : ω) :
    ω × Except Error Payload :=
  match source with
  | .object =>
    match required store dataAttribute object with
    | (object, .error e) => (object, .error e)
    | (object, .ok bytes) => (object, .ok (.encoded bytes))
  | .rgb =>
    match readDimension store rowsAttribute object with
    | (object, .error e) => (object, .error e)
    | (object, .ok height) =>
      match readDimension store columnsAttribute object with
      | (object, .error e) => (object, .error e)
      | (object, .ok width) =>
        match required store pixelsAttribute object with
        | (object, .error e) => (object, .error e)
        | (object, .ok rgbx) => (object, .ok (.pixels width height rgbx))

/-- The octets of the image frame. -/
def readImage (source : ImageSource) (store : ObjectStore ω) (object : ω) :
    ω × Except Error Bytes :=
  match readPayload source store object with
  | (object, .error e) => (object, .error e)
  | (object, .ok payload) =>
    match payload.bytes with
    | .ok bytes => (object, .ok bytes)
    | .error fault => (object, .error (.badAttribute pixelsAttribute fault.message))

/-! ### Scoring -/

/-- Writes what a worker reports to the object: under its key, with a zero octet behind the value.
What has a key that is no UTF-8 is dropped. -/
def keep (store : ObjectStore ω) : Reply.Sink ω := fun object a =>
  match Utf8.toText? a.key with
  | .error _ => (object, .ok ())
  | .ok key => store.write key (a.value ++ [0]) object

/-- The filter after a reply: a malformed one costs it the worker, if that is the policy. -/
def afterReply (programs : Programs σ) (outcome : Reply.Outcome) (f : Filter σ) (s : System) :
    Filter σ × System :=
  match outcome, f.framingPolicy with
  | .framing _, .teardown =>
    match f.worker.teardown programs.worker s with
    | (worker, s, _) => ({ f with worker := worker }, s)
  | _, _ => (f, s)

/-- What scoring an object leaves: its answer, the filter, the system and the object. -/
structure Evaluation (σ ω : Type) where
  answer : Except Error Int
  filter : Filter σ
  system : System
  object : ω

/-- Reads what the worker says to a request, and writes to the object what it reports. -/
def evaluateReply (programs : Programs σ) (store : ObjectStore ω) (object : ω) (f : Filter σ)
    (s : System) : Evaluation σ ω :=
  match f.worker.read programs.worker f.replyForm (keep store) object with
  | (worker, object, .error e) => ⟨.error e, { f with worker := worker }, s, object⟩
  | (worker, object, .ok outcome) =>
    let (f, s) := afterReply programs outcome { f with worker := worker } s
    match store.write resultAttribute (resultOctets outcome.value) object with
    | (object, .error e) => ⟨.error e, f, s, object⟩
    | (object, .ok ()) => ⟨.ok (score outcome.value), f, s, object⟩

/-- Has the worker run the script on an image. -/
def evaluateImage (programs : Programs σ) (store : ObjectStore ω) (image : Bytes) (object : ω)
    (f : Filter σ) (s : System) : Evaluation σ ω :=
  match f.worker.send programs.worker image (Utf8.ofText f.script) with
  | (worker, .error e) => ⟨.error e, { f with worker := worker }, s, object⟩
  | (worker, .ok ()) => evaluateReply programs store object { f with worker := worker } s

/-- Scores an object. -/
def evaluate (programs : Programs σ) (store : ObjectStore ω) (object : ω) (f : Filter σ)
    (s : System) : Evaluation σ ω :=
  match readImage f.imageSource store object with
  | (object, .error e) => ⟨.error e, f, s, object⟩
  | (object, .ok image) => f.evaluateImage programs store image object s

/-- Lets go of everything that the filter has. -/
def finish (programs : Programs σ) (f : Filter σ) (s : System) :
    Filter σ × System × Except Error Unit :=
  match f.worker.teardown programs.worker s with
  | (worker, s, answer) => ({ f with worker := worker }, s, answer)

/-- Drops a filter that may not have been finished. -/
def drop (programs : Programs σ) (f : Filter σ) (s : System) : Filter σ × System :=
  match f.worker.drop programs.worker s with
  | (worker, s) => ({ f with worker := worker }, s)

end Filter

end ImageScoring
