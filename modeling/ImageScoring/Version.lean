/-!
# Version

The version of the program, with the revision that it was built from where one is known.
-/

namespace ImageScoring.Version

/-- The version of the package. -/
def package : String := "0.1.0"

/-- The revision; this build tells none. -/
def revision : String := ""

/-- A version and its revision in words. -/
def text (package revision : String) : String :=
  if revision.isEmpty then package else package ++ " (" ++ revision ++ ")"

/-- The version in words. -/
def full : String := text package revision

end ImageScoring.Version
