import ImageScoring.Number.Prefix
import ImageScoring.Reply.Basic
import ImageScoring.Text.Count

/-!
# Reading records

A `Reader` holds what is left of a stream of octets, and two notes that one reply leaves for the
next: whether the newline behind a result is still to be skipped, and whether the stream was left
inside a malformed reply. Its operations take lines, sized parts and whole records off the front.
A stream that ends too early is a `ReadFault`; after one, nothing is left to read.
-/

namespace ImageScoring

/-- What follows the octets of a stream that are at hand. -/
inductive Ending where
  /-- The end of the stream. -/
  | closed
  /-- Nothing, for ever: the other side neither writes nor closes. -/
  | silent
  deriving DecidableEq, Repr

/-- A stream that ends where more was needed. -/
inductive ReadFault where
  | closedInRecord
  | closedInPayload (received expected : Nat)
  | closedAtTerminator
  /-- More never comes, and neither does the end. -/
  | hung
  deriving DecidableEq, Repr

/-- The wording of a fault. -/
def ReadFault.message : ReadFault → String
  | .closedInRecord => "stream closed mid-record"
  | .closedInPayload received expected =>
    "stream closed after " ++ toString received ++ " of " ++ toString expected ++ " payload bytes"
  | .closedAtTerminator => "failed to fill whole buffer"
  | .hung => "waiting for ever"

/-- What is left of a stream, and what the last reply leaves for the next. -/
structure Reader where
  rest : Bytes
  ending : Ending := .closed
  /-- The last reply stopped right behind its result, before the newline there. -/
  skipBlank : Bool := false
  /-- The last reply was malformed; where the next one begins is to be found out. -/
  resync : Bool := false
  deriving DecidableEq, Repr

namespace Reader

/-- A line without the carriage return that may stand at its end. -/
def dropReturn (line : Bytes) : Bytes :=
  if line.getLast? = some carriageReturn then line.dropLast else line

/-- The reader with nothing left, as after a fault. -/
def drained (r : Reader) : Reader :=
  { r with rest := [] }

/-- The fault that a stream ending this way gives where the end would be `fault`. -/
def faultAtEnd (r : Reader) (fault : ReadFault) : ReadFault :=
  match r.ending with
  | .closed => fault
  | .silent => .hung

/-- The next line without its terminator, `none` at the end of the stream. The end of the stream
ends a line too. -/
def line? (r : Reader) : Except ReadFault (Option (Bytes × Reader)) :=
  let line := r.rest.takeWhile (· != newline)
  match r.rest.dropWhile (· != newline) with
  | _ :: rest => .ok (some (dropReturn line, { r with rest := rest }))
  | [] =>
    match r.ending with
    | .silent => .error .hung
    | .closed =>
      if line.isEmpty then .ok none else .ok (some (dropReturn line, { r with rest := [] }))

/-- The next line; the end of the stream is a fault. -/
def line (r : Reader) : Except ReadFault (Bytes × Reader) :=
  match r.line? with
  | .ok (some answer) => .ok answer
  | .ok none => .error .closedInRecord
  | .error fault => .error fault

/-- Exactly `count` octets. -/
def payload (count : Nat) (r : Reader) : Except ReadFault (Bytes × Reader) :=
  let taken := r.rest.take count
  if taken.length < count then
    .error (r.faultAtEnd (.closedInPayload taken.length count))
  else .ok (taken, { r with rest := r.rest.drop count })

/-- The octet behind a sized part: whether it is a newline. -/
def terminator (r : Reader) : Except ReadFault (Bool × Reader) :=
  match r.rest with
  | [] => .error (r.faultAtEnd .closedAtTerminator)
  | b :: rest => .ok (b == newline, { r with rest := rest })

/-! ### Records -/

/-- The line of the next header. One empty line is skipped first if the last reply left one. -/
def headerLine (r : Reader) : Except ReadFault (Bytes × Reader) :=
  match r.line with
  | .error fault => .error fault
  | .ok (line, after) =>
    let next := { after with skipBlank := false }
    if r.skipBlank && line.isEmpty then next.line else .ok (line, next)

/-- The next header. -/
def header (r : Reader) : Except ReadFault (Reply.Header × Reader) :=
  match r.headerLine with
  | .ok (line, r) => .ok (.ofLine line, r)
  | .error fault => .error fault

/-- Why a part of a record cannot be had: the stream ends, or the part breaks the rules and the
reader goes on behind it. -/
inductive Stop where
  | fault (fault : ReadFault)
  | malformed (error : Reply.FramingError) (after : Reader)
  deriving DecidableEq, Repr

/-- A length line and that many octets. -/
def sized (r : Reader) : Except Stop (Bytes × Reader) :=
  match r.line with
  | .error fault => .error (.fault fault)
  | .ok (line, r) =>
    match Count.ofLine? line with
    | none => .error (.malformed (.badLength line) r)
    | some count =>
      match r.payload count with
      | .error fault => .error (.fault fault)
      | .ok answer => .ok answer

/-- A marker line, a sized part and the newline behind it. -/
def field (marker : Bytes) (r : Reader) : Except Stop (Bytes × Reader) :=
  match r.line with
  | .error fault => .error (.fault fault)
  | .ok (line, r) =>
    if line ≠ marker then .error (.malformed (.missingMarker marker line) r)
    else
      match r.sized with
      | .error stop => .error stop
      | .ok (bytes, r) =>
        match r.terminator with
        | .error fault => .error (.fault fault)
        | .ok (true, r) => .ok (bytes, r)
        | .ok (false, r) => .error (.malformed .missingTerminator r)

/-- The rest of an attribute whose header has been read. -/
def attributeBody (r : Reader) : Except Stop (Attribute × Reader) :=
  match r.field Reply.keyMarker with
  | .error stop => .error stop
  | .ok (key, r) =>
    match r.field Reply.valueMarker with
    | .error stop => .error stop
    | .ok (value, r) => .ok (⟨key, value⟩, r)

/-- The rest of a result whose header has been read. The newline behind it is left. -/
def resultBody (r : Reader) : Except Stop (Binary64 × Reader) :=
  match r.sized with
  | .error stop => .error stop
  | .ok (text, r) => .ok (Prefix.value text, { r with skipBlank := true })

/-- The record that a body gives: what it holds, or how it is malformed. -/
def recordOf {α : Type} (wrap : α → Reply.Record) :
    Except Stop (α × Reader) → Except ReadFault (Reply.Record × Reader)
  | .ok (part, r) => .ok (wrap part, r)
  | .error (.malformed error r) => .ok (.malformed error, r)
  | .error (.fault fault) => .error fault

/-- The next record. -/
def record (r : Reader) : Except ReadFault (Reply.Record × Reader) :=
  match r.header with
  | .error fault => .error fault
  | .ok (.opening, r) => .ok (.opening, r)
  | .ok (.attr, r) => recordOf .attr r.attributeBody
  | .ok (.result, r) => recordOf .result r.resultBody
  | .ok (.other line, r) => .ok (.malformed (.unexpectedLine line), r)

/-- A reply of the short kind: one line, the text of a number. -/
def bare (r : Reader) : Except ReadFault (Reply.Outcome × Reader) :=
  match r.headerLine with
  | .ok (line, r) => .ok (.completed (Prefix.value line) 0, r)
  | .error fault => .error fault

/-! ### Every step takes something -/

theorem length_of_line?_eq_some {r : Reader} {line : Bytes} {r' : Reader}
    (h : r.line? = .ok (some (line, r'))) : r'.rest.length < r.rest.length := by
  have hl := congrArg List.length
    (List.takeWhile_append_dropWhile (p := (· != newline)) (l := r.rest))
  rw [List.length_append] at hl
  unfold line? at h
  dsimp only at h
  split at h
  · rename_i heq
    simp only [Except.ok.injEq, Option.some.injEq, Prod.mk.injEq] at h
    obtain ⟨-, rfl⟩ := h
    rw [heq, List.length_cons] at hl
    dsimp only
    omega
  · rename_i heq
    rw [heq, List.length_nil] at hl
    split at h
    · simp at h
    · split at h
      · simp at h
      · rename_i hne
        simp only [Except.ok.injEq, Option.some.injEq, Prod.mk.injEq] at h
        obtain ⟨-, rfl⟩ := h
        have : (r.rest.takeWhile (· != newline)).length ≠ 0 := by
          simpa [List.isEmpty_iff, List.length_eq_zero_iff] using hne
        simp only [List.length_nil]
        omega

theorem length_of_line_eq_ok {r : Reader} {line : Bytes} {r' : Reader}
    (h : r.line = .ok (line, r')) : r'.rest.length < r.rest.length := by
  unfold Reader.line at h
  split at h
  · rename_i answer heq
    simp only [Except.ok.injEq] at h
    subst h
    exact length_of_line?_eq_some heq
  · simp at h
  · simp at h

theorem length_of_headerLine_eq_ok {r : Reader} {line : Bytes} {r' : Reader}
    (h : r.headerLine = .ok (line, r')) : r'.rest.length < r.rest.length := by
  unfold headerLine at h
  split at h
  · simp at h
  · rename_i line₁ r₁ heq
    have h₁ := length_of_line_eq_ok heq
    dsimp only at h
    split at h
    · have h₂ := length_of_line_eq_ok h
      exact Nat.lt_trans h₂ h₁
    · simp only [Except.ok.injEq, Prod.mk.injEq] at h
      obtain ⟨-, rfl⟩ := h
      exact h₁

theorem length_of_header_eq_ok {r : Reader} {header : Reply.Header} {r' : Reader}
    (h : r.header = .ok (header, r')) : r'.rest.length < r.rest.length := by
  unfold Reader.header at h
  split at h
  · rename_i line r₁ heq
    simp only [Except.ok.injEq, Prod.mk.injEq] at h
    obtain ⟨-, rfl⟩ := h
    exact length_of_headerLine_eq_ok heq
  · simp at h

theorem length_of_payload_eq_ok {r : Reader} {count : Nat} {bytes : Bytes} {r' : Reader}
    (h : r.payload count = .ok (bytes, r')) : r'.rest.length ≤ r.rest.length := by
  unfold payload at h
  dsimp only at h
  split at h
  · simp at h
  · simp only [Except.ok.injEq, Prod.mk.injEq] at h
    obtain ⟨-, rfl⟩ := h
    simp

theorem length_of_terminator_eq_ok {r : Reader} {ends : Bool} {r' : Reader}
    (h : r.terminator = .ok (ends, r')) : r'.rest.length ≤ r.rest.length := by
  unfold terminator at h
  split at h
  · simp at h
  · rename_i heq
    simp only [Except.ok.injEq, Prod.mk.injEq] at h
    obtain ⟨-, rfl⟩ := h
    simp [heq]

theorem length_of_sized_eq_ok {r : Reader} {bytes : Bytes} {r' : Reader}
    (h : r.sized = .ok (bytes, r')) : r'.rest.length ≤ r.rest.length := by
  unfold sized at h
  split at h
  · simp at h
  · rename_i heq
    split at h
    · simp at h
    · split at h
      · simp at h
      · rename_i answer hp
        simp only [Except.ok.injEq] at h
        subst h
        exact Nat.le_trans (length_of_payload_eq_ok hp) (Nat.le_of_lt (length_of_line_eq_ok heq))

theorem length_of_field_eq_ok {r : Reader} {marker bytes : Bytes} {r' : Reader}
    (h : r.field marker = .ok (bytes, r')) : r'.rest.length ≤ r.rest.length := by
  unfold field at h
  split at h
  · simp at h
  · rename_i hl
    split at h
    · simp at h
    · split at h
      · simp at h
      · rename_i hs
        split at h
        · simp at h
        · rename_i ht
          simp only [Except.ok.injEq, Prod.mk.injEq] at h
          obtain ⟨-, rfl⟩ := h
          exact Nat.le_trans (length_of_terminator_eq_ok ht)
            (Nat.le_trans (length_of_sized_eq_ok hs) (Nat.le_of_lt (length_of_line_eq_ok hl)))
        · simp at h

theorem length_of_attributeBody_eq_ok {r : Reader} {a : Attribute} {r' : Reader}
    (h : r.attributeBody = .ok (a, r')) : r'.rest.length ≤ r.rest.length := by
  unfold attributeBody at h
  split at h
  · simp at h
  · rename_i hk
    split at h
    · simp at h
    · rename_i hv
      simp only [Except.ok.injEq, Prod.mk.injEq] at h
      obtain ⟨-, rfl⟩ := h
      exact Nat.le_trans (length_of_field_eq_ok hv) (length_of_field_eq_ok hk)

/-- Reading an attribute shortens the stream. -/
theorem length_of_record_eq_attr {r : Reader} {a : Attribute} {r' : Reader}
    (h : r.record = .ok (.attr a, r')) : r'.rest.length < r.rest.length := by
  unfold Reader.record at h
  split at h
  · simp at h
  · simp at h
  · rename_i r₁ hh
    cases hb : r₁.attributeBody with
    | ok answer =>
      obtain ⟨b, r₂⟩ := answer
      rw [hb] at h
      simp only [recordOf, Except.ok.injEq, Prod.mk.injEq] at h
      obtain ⟨-, rfl⟩ := h
      exact Nat.lt_of_le_of_lt (length_of_attributeBody_eq_ok hb) (length_of_header_eq_ok hh)
    | error stop =>
      rw [hb] at h
      cases stop <;> simp [recordOf] at h
  · rename_i r₁ hh
    cases hb : r₁.resultBody with
    | ok answer => rw [hb] at h; simp [recordOf] at h
    | error stop =>
      rw [hb] at h
      cases stop <;> simp [recordOf] at h
  · simp at h

/-! ### Finding the next reply -/

/-- The reader behind the next `BEGIN` line, everything before it dropped. -/
def seekBegin (r : Reader) : Except ReadFault Reader :=
  match _h : r.line with
  | .error fault => .error fault
  | .ok (line, r') =>
    if line = Reply.beginLine then .ok { r' with skipBlank := false } else r'.seekBegin
termination_by r.rest.length
decreasing_by exact length_of_line_eq_ok _h

end Reader

end ImageScoring
