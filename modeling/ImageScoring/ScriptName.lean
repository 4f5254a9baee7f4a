import ImageScoring.Text.Base64
import ImageScoring.Text.Blank
import ImageScoring.Text.Utf8

/-!
# Script names

The filter's first argument names the script that the worker runs for every object. It is base64
of the name and a zero octet behind it; white space around it does not count.
-/

namespace ImageScoring.ScriptName

/-- Why an argument names no script. -/
inductive Fault where
  | noArgument
  | notBase64 (fault : Base64.Fault)
  | unterminated
  | notUtf8 (fault : Utf8.Fault)
  | empty
  deriving DecidableEq, Repr

/-- The wording of a fault. -/
def Fault.message : Fault → String
  | .noArgument => "no macro argument given"
  | .notBase64 fault => "not base64: " ++ fault.message
  | .unterminated => "missing NUL terminator"
  | .notUtf8 fault => "not UTF-8: " ++ fault.message
  | .empty => "empty macro name"

/-- The name in decoded octets: they end in a zero, and what stands before the first zero is the
name. -/
def ofOctets? (octets : Bytes) : Except Fault String :=
  if octets.getLast? ≠ some 0 then .error .unterminated
  else
    match Utf8.toText? (octets.takeWhile (· != 0)) with
    | .error fault => .error (.notUtf8 fault)
    | .ok name => if name.isEmpty then .error .empty else .ok name

/-- The name that an argument stands for. -/
def decode? (argument : String) : Except Fault String :=
  match Base64.decode? (Utf8.encode (Text.trim argument.toList)) with
  | .error fault => .error (.notBase64 fault)
  | .ok octets => ofOctets? octets

/-- The name that the first of a filter's arguments stands for. -/
def ofArguments? : List String → Except Fault String
  | [] => .error .noArgument
  | argument :: _ => decode? argument

end ImageScoring.ScriptName
