import ImageScoring.Number.Binary64
import ImageScoring.Text.Utf8

/-!
# Replies

A worker answers a request with a reply: a `BEGIN` line, any number of attributes, and a result.

    BEGIN
    ATTR
    K
    <length>
    <that many octets>
    V
    <length>
    <that many octets>
    RESULT
    <length>
    <that many octets, the text of a number>

A newline follows every sized part; the one behind the result is left to whoever reads the next
reply. This module names the parts of a reply and the ways in which one can be malformed.
-/

namespace ImageScoring

/-- An attribute that a worker reports. -/
structure Attribute where
  key : Bytes
  value : Bytes
  deriving DecidableEq, Repr

/-- The key as text, whatever is not UTF-8 in it replaced. -/
def Attribute.keyText (a : Attribute) : String :=
  Utf8.toTextLossy a.key

namespace Reply

/-- How a reply breaks the rules. -/
inductive FramingError where
  | missingBegin (line : Bytes)
  | duplicateBegin
  | unexpectedLine (line : Bytes)
  | missingMarker (expected line : Bytes)
  | badLength (line : Bytes)
  | missingTerminator
  deriving DecidableEq, Repr

/-- The wording of a framing error. -/
def FramingError.message : FramingError → String
  | .missingBegin line => "expected BEGIN, got '" ++ Utf8.toTextLossy line ++ "'"
  | .duplicateBegin => "BEGIN repeated inside a session"
  | .unexpectedLine line => "unexpected line '" ++ Utf8.toTextLossy line ++ "'"
  | .missingMarker expected line =>
    "expected '" ++ Utf8.toTextLossy expected ++ "' marker, got '" ++ Utf8.toTextLossy line ++ "'"
  | .badLength line => "malformed length field '" ++ Utf8.toTextLossy line ++ "'"
  | .missingTerminator => "payload not terminated by a newline"

/-- The line that introduces a record. -/
inductive Header where
  | opening
  | attr
  | result
  | other (line : Bytes)
  deriving DecidableEq, Repr

/-- The lines that introduce a record, and those that introduce the parts of an attribute. -/
def beginLine : Bytes := ascii "BEGIN"
def attributeLine : Bytes := ascii "ATTR"
def resultLine : Bytes := ascii "RESULT"
def keyMarker : Bytes := ascii "K"
def valueMarker : Bytes := ascii "V"

/-- The header that a line is. -/
def Header.ofLine (line : Bytes) : Header :=
  if line = beginLine then .opening
  else if line = attributeLine then .attr
  else if line = resultLine then .result
  else .other line

/-- The line of a header. -/
def Header.line : Header → Bytes
  | .opening => beginLine
  | .attr => attributeLine
  | .result => resultLine
  | .other line => line

/-- A record: a header and what belongs to it. -/
inductive Record where
  | opening
  | attr (content : Attribute)
  | result (value : Binary64)
  | malformed (error : FramingError)
  deriving DecidableEq, Repr

/-- How reading a reply ended. -/
inductive Outcome where
  | completed (result : Binary64) (attributes : Nat)
  | framing (error : FramingError)
  deriving DecidableEq, Repr

/-- The result of a reply that is malformed: minus one. -/
def sentinel : Binary64 := (Binary64.ofNat 1).neg

/-- The number a reply comes down to. -/
def Outcome.value : Outcome → Binary64
  | .completed result _ => result
  | .framing _ => sentinel

end Reply

end ImageScoring
