import ImageScoring.Proofs.Reply.Encoding

/-!
# How replies are spelled

A worker tells every length in plain digits, and ends every line with a newline, or with a carriage
return and a newline. `Content.pieces` is what its reply is put together from, and `Spelled` says
which octets such pieces are. What `Content.toResult` writes is among them (`spelled_toResult`), and
each of them is a framed reply (`framed_of_spelled`).
-/

namespace ImageScoring

namespace Reply

open Reader (dropReturn)

/-! ### How replies are spelled -/

/-- What a reply is put together from: lines, and octets that stand as they are. -/
inductive Piece where
  | line (text : Bytes)
  | octets (part : Bytes)

/-- `Spelled pieces stream`: the stream is these pieces, one after the other. Every line ends with a
newline, and may have a carriage return before it. -/
inductive Spelled : List Piece → Bytes → Prop where
  | nil : Spelled [] []
  | line {text stop rest : Bytes} {pieces : List Piece} :
      stop = [] ∨ stop = [carriageReturn] → Spelled pieces rest →
      Spelled (.line text :: pieces) (text ++ stop ++ newline :: rest)
  | octets {part rest : Bytes} {pieces : List Piece} : Spelled pieces rest →
      Spelled (.octets part :: pieces) (part ++ rest)

/-- A sized part: the decimal digits of its length, and the part. -/
def sizedPieces (part : Bytes) : List Piece :=
  [.line (Count.line part.length), .octets part]

def fieldPieces (marker part : Bytes) : List Piece :=
  .line marker :: (sizedPieces part ++ [.octets [newline]])

def attributePieces (a : Attribute) : List Piece :=
  .line attributeLine :: (fieldPieces keyMarker a.key ++ fieldPieces valueMarker a.value)

def resultPieces (payload : Bytes) : List Piece :=
  .line resultLine :: sizedPieces payload

/-- A reply, up to the end of its result. -/
def Content.pieces (c : Content) : List Piece :=
  .line beginLine :: (c.attributes.flatMap attributePieces ++ resultPieces c.payload)

theorem Spelled.append {pieces pieces' : List Piece} {stream stream' : Bytes}
    (h : Spelled pieces stream) (h' : Spelled pieces' stream') :
    Spelled (pieces ++ pieces') (stream ++ stream') := by
  induction h with
  | nil => exact h'
  | line hstop _ ih =>
    rw [List.append_assoc, List.cons_append]
    exact .line hstop ih
  | octets _ ih =>
    rw [List.append_assoc]
    exact .octets ih

/-! ### What is written is spelled so -/

theorem spelled_writeLine (text : Bytes) : Spelled [.line text] (writeLine text) := by
  have h : Spelled [.line text] (text ++ [] ++ [newline]) := .line (.inl rfl) .nil
  rwa [List.append_nil] at h

theorem spelled_octets (part : Bytes) : Spelled [.octets part] part := by
  have h : Spelled [.octets part] (part ++ []) := .octets .nil
  rwa [List.append_nil] at h

theorem spelled_writeSized (part : Bytes) : Spelled (sizedPieces part) (writeSized part) :=
  (spelled_writeLine _).append (spelled_octets part)

theorem spelled_writeField (marker part : Bytes) :
    Spelled (fieldPieces marker part) (writeField marker part) :=
  ((spelled_writeLine marker).append (spelled_writeSized part)).append (spelled_octets [newline])

theorem spelled_writeAttribute (a : Attribute) :
    Spelled (attributePieces a) (writeAttribute a) :=
  ((spelled_writeLine attributeLine).append (spelled_writeField keyMarker a.key)).append
    (spelled_writeField valueMarker a.value)

theorem spelled_attributes (attributes : List Attribute) :
    Spelled (attributes.flatMap attributePieces) (attributes.flatMap writeAttribute) := by
  induction attributes with
  | nil => exact .nil
  | cons a attributes ih => exact (spelled_writeAttribute a).append ih

/-- A reply as it is written is one of the ways to spell it. -/
theorem Content.spelled_toResult (c : Content) : Spelled c.pieces c.toResult := by
  have h := (((spelled_writeLine beginLine).append (spelled_attributes c.attributes)).append
    (spelled_writeLine resultLine)).append (spelled_writeSized c.payload)
  rw [List.append_assoc, List.append_assoc] at h
  exact h

/-! ### What is spelled is a reply -/

section

variable {e : Ending} {pieces : List Piece} {stream : Bytes}

theorem dropReturn_of_stop {text stop : Bytes} (hr : text.getLast? ≠ some carriageReturn)
    (hstop : stop = [] ∨ stop = [carriageReturn]) : dropReturn (text ++ stop) = text := by
  rcases hstop with rfl | rfl
  · rw [List.append_nil]
    exact if_neg hr
  · simp [dropReturn]

theorem newline_notMem_of_stop {text stop : Bytes} (hn : newline ∉ text)
    (hstop : stop = [] ∨ stop = [carriageReturn]) : newline ∉ text ++ stop := by
  rcases hstop with rfl | rfl
  · rwa [List.append_nil]
  · simp only [List.mem_append, hn, List.mem_singleton, false_or]
    decide

theorem line_of_spelled {text : Bytes} (hn : newline ∉ text)
    (hr : text.getLast? ≠ some carriageReturn) (h : Spelled (.line text :: pieces) stream) :
    ∃ rest, Line e text stream rest ∧ Spelled pieces rest := by
  cases h with
  | @line _ stop rest _ hstop hrest =>
    have hl : Line e (dropReturn (text ++ stop)) (text ++ stop ++ newline :: rest) rest :=
      .ended (newline_notMem_of_stop hn hstop)
    rw [dropReturn_of_stop hr hstop] at hl
    exact ⟨rest, hl, hrest⟩

theorem sized_of_spelled {part : Bytes} (hfits : part.length < Count.lengthLimit)
    (h : Spelled (sizedPieces part ++ pieces) stream) :
    ∃ rest, Sized e part stream rest ∧ Spelled pieces rest := by
  obtain ⟨s, hl, hs⟩ := line_of_spelled (newline_notMem_countLine _) (getLast?_countLine _) h
  cases hs with
  | @octets _ rest _ hrest => exact ⟨rest, .intro hl (Count.spells_line hfits), hrest⟩

theorem field_of_spelled {marker part : Bytes} (hn : newline ∉ marker)
    (hr : marker.getLast? ≠ some carriageReturn) (hfits : part.length < Count.lengthLimit)
    (h : Spelled (fieldPieces marker part ++ pieces) stream) :
    ∃ rest, Field e marker part stream rest ∧ Spelled pieces rest := by
  obtain ⟨s, hl, hs⟩ := line_of_spelled hn hr h
  change Spelled (_ ++ _ ++ pieces) s at hs
  rw [List.append_assoc] at hs
  obtain ⟨s', hsized, hs'⟩ := sized_of_spelled hfits hs
  cases hs' with
  | @octets _ rest _ hrest => exact ⟨rest, .intro hl hsized, hrest⟩

theorem attributeBlock_of_spelled {a : Attribute} (hkey : a.key.length < Count.lengthLimit)
    (hvalue : a.value.length < Count.lengthLimit)
    (h : Spelled (attributePieces a ++ pieces) stream) :
    ∃ rest, AttributeBlock e a stream rest ∧ Spelled pieces rest := by
  obtain ⟨s, hl, hs⟩ := line_of_spelled (by decide) (by decide) h
  change Spelled (_ ++ _ ++ pieces) s at hs
  rw [List.append_assoc] at hs
  obtain ⟨s₁, hk, hs₁⟩ := field_of_spelled (by decide) (by decide) hkey hs
  obtain ⟨rest, hv, hrest⟩ := field_of_spelled (by decide) (by decide) hvalue hs₁
  exact ⟨rest, .intro hl hk hv, hrest⟩

theorem body_of_spelled {attributes : List Attribute} {payload : Bytes}
    (hkeys : ∀ a ∈ attributes, a.key.length < Count.lengthLimit)
    (hvalues : ∀ a ∈ attributes, a.value.length < Count.lengthLimit)
    (hfits : payload.length < Count.lengthLimit)
    (h : Spelled (attributes.flatMap attributePieces ++ resultPieces payload) stream) :
    Body e attributes payload stream [] := by
  induction attributes generalizing stream with
  | nil =>
    obtain ⟨s, hl, hs⟩ := line_of_spelled (by decide) (by decide) h
    rw [← List.append_nil (sizedPieces payload)] at hs
    obtain ⟨rest, hsized, hrest⟩ := sized_of_spelled hfits hs
    cases hrest
    exact .result (.intro hl hsized)
  | cons a attributes ih =>
    rw [List.flatMap_cons, List.append_assoc] at h
    obtain ⟨s, ha, hs⟩ := attributeBlock_of_spelled (hkeys a (by simp)) (hvalues a (by simp)) h
    exact .attr ha (ih (fun b hb => hkeys b (by simp [hb])) (fun b hb => hvalues b (by simp [hb]))
      hs)

theorem Content.framed_of_spelled {c : Content} (h : Spelled c.pieces stream) :
    Framed e c.attributes c.payload stream [] := by
  obtain ⟨s, hl, hs⟩ := line_of_spelled (by decide) (by decide) h
  exact .intro hl (body_of_spelled c.keys_fit c.values_fit c.payload_fits hs)

end

end Reply

end ImageScoring
