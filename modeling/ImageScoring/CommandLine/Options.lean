import ImageScoring.Settings.Environment

/-!
# Options

The command line knows three options: to serve a host, to leave colours out, and to tell the
version. They are read from the left, each of the first two at most once; the version is told as
soon as it is asked for. A variable of the environment may also ask for no colours. Anything else
is a mistake in use.
-/

namespace ImageScoring.CommandLine

/-- What the command line asks for. -/
inductive Options where
  | version
  /-- To serve a host, if `filter` says so; else nothing, which is a mistake too. -/
  | run (filter noColor : Bool)
  deriving DecidableEq, Repr

/-- Whether an argument asks for the version; a letter for it may be followed by others. -/
def asksVersion (arg : String) : Bool :=
  arg == "--version" || "-V".toList.isPrefixOf arg.toList

/-- The options among arguments, those told before given; `none` for a mistake in use. -/
def readOptions (filter noColor : Bool) : List String → Option Options
  | [] => some (.run filter noColor)
  | arg :: args =>
    if asksVersion arg then some .version
    else if arg = "--filter" then if filter then none else readOptions true noColor args
    else if arg = "--no-color" then if noColor then none else readOptions filter true args
    else if arg = "--" then if args.isEmpty then some (.run filter noColor) else none
    else none

/-- What a variable says that has to be true or false; `none` if it says something else. -/
def truth? (value : Bytes) : Option Bool :=
  if value = ascii "true" then some true
  else if value = ascii "false" then some false
  else none

/-- The variable that asks for no colours. -/
def noColorVariable : String := "NO_COLOR"

/-- What the arguments and the environment ask for; `none` for a mistake in use. The variable is
looked at only where no argument asks for the same. -/
def options? (env : Environment) (args : List String) : Option Options :=
  match readOptions false false args with
  | some (.run filter false) =>
    match env.bytes? noColorVariable with
    | none => some (.run filter false)
    | some value => (truth? value).map (.run filter)
  | other => other

/-- Whether a variable is set to anything but zero. -/
def switchedOn (env : Environment) (name : String) : Bool :=
  (env.text? name).any (· != "0")

/-- Whether a variable asks for colours wherever messages go. The first one counts if it is there:
it holds a number of colours or a word. -/
def colorForced (env : Environment) : Bool :=
  match env.text? "FORCE_COLOR" with
  | some value => value != "false" && Count.read? Count.lengthLimit value.toList != some 0
  | none => switchedOn env "CLICOLOR_FORCE"

/-- The values of the variable `CI` that tell of an automatic build. -/
def buildMarks : List String := ["true", "1"]

/-- Whether colours can be shown: by a terminal that is told and is not a dumb one, or, where none
is told, because another variable says so. -/
def showsColor (env : Environment) : Bool :=
  match env.text? "TERM" with
  | some terminal => terminal != "dumb"
  | none =>
    (env.text? "COLORTERM").isSome || switchedOn env "CLICOLOR" ||
      (env.text? "CI").any buildMarks.contains

/-- Whether messages are taken to go to a terminal that shows colours. They never go to a terminal,
but a variable may say that this does not matter. -/
def colorShown (env : Environment) : Bool :=
  switchedOn env "IGNORE_IS_TERMINAL" && !switchedOn env noColorVariable && showsColor env

/-- Whether messages are coloured, which happens only where a variable asks for it. -/
def colored (env : Environment) (noColor : Bool) : Bool :=
  !noColor && (colorForced env || colorShown env)

end ImageScoring.CommandLine
