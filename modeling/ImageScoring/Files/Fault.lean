/-!
# File faults

The ways in which an operation on files or the start of a program fails, and the system's words for
them.
-/

namespace ImageScoring

/-- Why an operation on files or the start of a program fails. -/
inductive FileFault where
  | notPermitted
  | missing
  | argumentsTooLong
  | denied
  | alreadyThere
  | notDirectory
  | isDirectory
  | tooLarge
  | nameTooLong
  | tooManyLinks
  /-- The path holds a zero octet, which no path of the system can. -/
  | zeroOctet
  /-- Only regular files can be copied. -/
  | notRegular
  /-- A program's name or an argument holds a zero octet. -/
  | zeroInCommand
  deriving DecidableEq, Repr

/-- The wording of a fault. -/
def FileFault.message : FileFault → String
  | .notPermitted => "Operation not permitted (os error 1)"
  | .missing => "No such file or directory (os error 2)"
  | .argumentsTooLong => "Argument list too long (os error 7)"
  | .denied => "Permission denied (os error 13)"
  | .alreadyThere => "File exists (os error 17)"
  | .notDirectory => "Not a directory (os error 20)"
  | .isDirectory => "Is a directory (os error 21)"
  | .tooLarge => "File too large (os error 27)"
  | .nameTooLong => "File name too long (os error 36)"
  | .tooManyLinks => "Too many levels of symbolic links (os error 40)"
  | .zeroOctet => "file name contained an unexpected NUL byte"
  | .notRegular => "the source path is neither a regular file nor a symlink to a regular file"
  | .zeroInCommand => "nul byte found in provided data"

end ImageScoring
