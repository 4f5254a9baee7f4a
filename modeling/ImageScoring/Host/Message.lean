import ImageScoring.Text.Count

/-!
# Host messages

The host and the filter talk in lines and strings. A string is its length, a newline, that many
octets and a newline; an empty line stands for a missing value.

    host    <filter name> <number of arguments> <arguments> <blob>
    filter  init-success
    host    evaluate
    filter  get-attribute <name>           answered with <value>
    filter  set-attribute <name> <value>
    filter  result <score>
    host    shutdown, or the end of the stream

This module writes them.
-/

namespace ImageScoring.Host

/-- A line and its terminator. -/
def line (content : Bytes) : Bytes :=
  content ++ [newline]

/-- A string. -/
def string (content : Bytes) : Bytes :=
  line (Count.line content.length) ++ line content

/-- A string, or the empty line for a missing one. -/
def value : Option Bytes → Bytes
  | none => line []
  | some content => string content

/-- What the host says before anything else. -/
structure Startup where
  filterName : String
  args : List String
  blob : Bytes
  deriving DecidableEq, Repr

/-- The octets of a start-up message. -/
def Startup.encode (s : Startup) : Bytes :=
  string (Utf8.ofText s.filterName) ++ line (Count.line s.args.length) ++
    s.args.flatMap (fun arg => string (Utf8.ofText arg)) ++ string s.blob

/-- The filter is ready. -/
def ready : Bytes := line (ascii "init-success")

/-- The filter asks for an attribute. -/
def getAttribute (name : String) : Bytes :=
  line (ascii "get-attribute") ++ string (Utf8.ofText name)

/-- The filter sets an attribute. -/
def setAttribute (name : String) (content : Bytes) : Bytes :=
  line (ascii "set-attribute") ++ string (Utf8.ofText name) ++ string content

/-- The filter tells a score. -/
def result (score : Int) : Bytes :=
  line (ascii "result") ++ string (ascii (toString score))

end ImageScoring.Host
