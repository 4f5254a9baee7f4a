import ImageScoring.Text.Keyword

/-!
# Choices

The settings that are one of a few alternatives, the words for them and the text that tells which
one is set. Words count in any case.
-/

namespace ImageScoring

/-- The form of a worker's replies. -/
inductive ReplyForm where
  /-- `BEGIN`, attributes and a result. -/
  | framed
  /-- One line, the text of a number. -/
  | bare
  deriving DecidableEq, Repr

/-- Where the image of a request comes from. -/
inductive ImageSource where
  /-- The object's data, an image in some file format. -/
  | object
  /-- The object's pixels, four octets each. -/
  | rgb
  deriving DecidableEq, Repr

/-- What happens to the worker after a malformed reply. -/
inductive FramingPolicy where
  /-- It stays; only the request that got the reply fails. -/
  | isolate
  /-- It is torn down, and every later request fails. -/
  | teardown
  deriving DecidableEq, Repr

/-- The form of log lines. -/
inductive LogFormat where
  | pretty
  | compact
  | json
  deriving DecidableEq, Repr

/-- A setting with few alternatives: what it is called, the words for its alternatives, and the
words that are told when none of them is met. -/
structure Choice (α : Type) where
  title : String
  words : List (String × α)
  options : String

namespace Choice

/-- The wording of the error for a text that names no alternative. -/
def unknown {α : Type} (choice : Choice α) (text : String) : String :=
  "Unknown " ++ choice.title ++ ": '" ++ text ++ "'. Valid options: " ++ choice.options

/-- The alternative that a text names. -/
def parse {α : Type} (choice : Choice α) (text : String) : Except String α :=
  match Text.keyword? choice.words text with
  | some value => .ok value
  | none => .error (choice.unknown text)

end Choice

namespace ReplyForm

def choice : Choice ReplyForm where
  title := "protocol variant"
  words := [("framed", .framed), ("bare", .bare), ("bare-result", .bare)]
  options := "framed, bare"

/-- The word that tells the form. -/
def text : ReplyForm → String
  | .framed => "framed"
  | .bare => "bare"

end ReplyForm

namespace ImageSource

def choice : Choice ImageSource where
  title := "image source"
  words := [("object", .object), ("data", .object), ("rgb", .rgb), ("rgbimage", .rgb)]
  options := "object, rgb"

/-- The word that tells the source. -/
def text : ImageSource → String
  | .object => "object"
  | .rgb => "rgb"

end ImageSource

namespace FramingPolicy

def choice : Choice FramingPolicy where
  title := "framing error policy"
  words := [("isolate", .isolate), ("teardown", .teardown), ("kill", .teardown)]
  options := "isolate, teardown"

/-- The word that tells the policy. -/
def text : FramingPolicy → String
  | .isolate => "isolate"
  | .teardown => "teardown"

end FramingPolicy

namespace LogFormat

def choice : Choice LogFormat where
  title := "log format"
  words := [("pretty", .pretty), ("full", .pretty), ("compact", .compact), ("json", .json)]
  options := "pretty, compact, json"

/-- The word that tells the format. -/
def text : LogFormat → String
  | .pretty => "pretty"
  | .compact => "compact"
  | .json => "json"

end LogFormat

end ImageScoring
