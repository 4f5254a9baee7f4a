import ImageScoring.Text.Count

/-!
# Environments

The variables that a program is started with. A variable counts as a text only if it is UTF-8.
-/

namespace ImageScoring

/-- Variables and their values; of two with one name the first counts. -/
structure Environment where
  bindings : List (String × Bytes) := []
  deriving DecidableEq, Repr

namespace Environment

/-- The value of a variable. -/
def bytes? (env : Environment) (name : String) : Option Bytes :=
  env.bindings.lookup name

/-- The value of a variable that is UTF-8. -/
def text? (env : Environment) (name : String) : Option String :=
  match env.bytes? name with
  | none => none
  | some value => (Utf8.toText? value).toOption

/-- The number below 2³² that a variable holds, with nothing around it. -/
def number? (env : Environment) (name : String) : Option Nat :=
  (env.text? name).bind fun text => Count.read? Count.displayLimit text.toList

/-- What a variable stands for under a reading that may fail. -/
def parsed? {α : Type} (parse : String → Except String α) (env : Environment) (name : String) :
    Option α :=
  (env.text? name).bind fun text => (parse text).toOption

end Environment

end ImageScoring
