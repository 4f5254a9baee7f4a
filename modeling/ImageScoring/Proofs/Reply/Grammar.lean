import ImageScoring.Proofs.Count
import ImageScoring.Reply.Reader

/-!
# The grammar of framed replies

Each relation below says what a stream of octets starts with and how it goes on; `e` is what comes
behind the octets at hand. Nothing here reads: the relations say which streams hold a framed reply,
and what the reply says.

    reply:      BEGIN line, attributes, RESULT line, sized part
    attribute:  ATTR line, K line, sized part, newline, V line, sized part, newline
    sized part: a line that spells a length, that many octets
-/

namespace ImageScoring.Reply

open Reader (dropReturn)

/-- `Line e text stream rest`: the stream starts with a line that reads `text`. A line goes up to
the next newline or, if it is not empty, up to the end; a carriage return at its end is no part of
its text. -/
inductive Line (e : Ending) : Bytes → Bytes → Bytes → Prop where
  | ended {l rest : Bytes} : newline ∉ l → Line e (dropReturn l) (l ++ newline :: rest) rest
  | last {l : Bytes} : e = .closed → l ≠ [] → newline ∉ l → Line e (dropReturn l) l []

/-- `Sized e part stream rest`: the stream starts with a line that spells the length of `part`, and
then with `part`, whatever its octets are. -/
inductive Sized (e : Ending) : Bytes → Bytes → Bytes → Prop where
  | intro {text part stream rest : Bytes} : Line e text stream (part ++ rest) →
      Count.Spells text part.length → Sized e part stream rest

/-- A part of an attribute: its marker line, the sized part, and one newline. -/
inductive Field (e : Ending) (marker : Bytes) : Bytes → Bytes → Bytes → Prop where
  | intro {part stream s rest : Bytes} : Line e marker stream s →
      Sized e part s (newline :: rest) → Field e marker part stream rest

/-- An attribute: its header line, the key and the value. -/
inductive AttributeBlock (e : Ending) : Attribute → Bytes → Bytes → Prop where
  | intro {key value stream s₁ s₂ rest : Bytes} : Line e attributeLine stream s₁ →
      Field e keyMarker key s₁ s₂ → Field e valueMarker value s₂ rest →
      AttributeBlock e ⟨key, value⟩ stream rest

/-- A result: its header line and its text. -/
inductive ResultBlock (e : Ending) : Bytes → Bytes → Bytes → Prop where
  | intro {payload stream s rest : Bytes} : Line e resultLine stream s → Sized e payload s rest →
      ResultBlock e payload stream rest

/-- Whole attributes, one after the other. -/
inductive Attributes (e : Ending) : List Attribute → Bytes → Bytes → Prop where
  | nil {stream : Bytes} : Attributes e [] stream stream
  | cons {a : Attribute} {attributes : List Attribute} {stream s rest : Bytes} :
      AttributeBlock e a stream s → Attributes e attributes s rest →
      Attributes e (a :: attributes) stream rest

/-- What a reply holds behind its `BEGIN`: attributes, then the result. -/
inductive Body (e : Ending) : List Attribute → Bytes → Bytes → Bytes → Prop where
  | result {payload stream rest : Bytes} : ResultBlock e payload stream rest →
      Body e [] payload stream rest
  | attr {a : Attribute} {attributes : List Attribute} {payload stream s rest : Bytes} :
      AttributeBlock e a stream s → Body e attributes payload s rest →
      Body e (a :: attributes) payload stream rest

/-- A framed reply. -/
inductive Framed (e : Ending) : List Attribute → Bytes → Bytes → Bytes → Prop where
  | intro {attributes : List Attribute} {payload stream s rest : Bytes} :
      Line e beginLine stream s → Body e attributes payload s rest →
      Framed e attributes payload stream rest

variable {e : Ending}

/-! ### What a body is made of -/

/-- The first attributes of a body stand in front of a body with the others. -/
theorem Body.split {taken left : List Attribute} {payload stream rest : Bytes}
    (h : Body e (taken ++ left) payload stream rest) :
    ∃ s, Attributes e taken stream s ∧ Body e left payload s rest := by
  induction taken generalizing stream with
  | nil => exact ⟨stream, .nil, h⟩
  | cons a taken ih =>
    cases h with
    | attr ha hb =>
      obtain ⟨s, hattributes, hbody⟩ := ih hb
      exact ⟨s, .cons ha hattributes, hbody⟩

/-- A body begins with the header line of an attribute or of the result. -/
theorem Body.line {attributes : List Attribute} {payload stream rest : Bytes}
    (h : Body e attributes payload stream rest) :
    ∃ text s, Line e text stream s ∧ (text = attributeLine ∨ text = resultLine) := by
  cases h with
  | result hr =>
    obtain ⟨hl, -⟩ := hr
    exact ⟨_, _, hl, .inr rfl⟩
  | attr ha _ =>
    obtain ⟨hl, -, -⟩ := ha
    exact ⟨_, _, hl, .inl rfl⟩

/-! ### What is read is a beginning of the stream -/

theorem Line.suffix {text stream rest : Bytes} (h : Line e text stream rest) : rest <:+ stream := by
  cases h with
  | @ended l rest hl => exact (List.suffix_cons newline rest).trans (List.suffix_append l _)
  | last _ _ _ => exact List.nil_suffix

theorem Sized.suffix {part stream rest : Bytes} (h : Sized e part stream rest) :
    rest <:+ stream := by
  obtain ⟨hl, -⟩ := h
  exact (List.suffix_append part rest).trans hl.suffix

theorem Field.suffix {marker part stream rest : Bytes} (h : Field e marker part stream rest) :
    rest <:+ stream := by
  obtain ⟨hl, hs⟩ := h
  exact ((List.suffix_cons newline rest).trans hs.suffix).trans hl.suffix

theorem AttributeBlock.suffix {a : Attribute} {stream rest : Bytes}
    (h : AttributeBlock e a stream rest) : rest <:+ stream := by
  obtain ⟨hl, hk, hv⟩ := h
  exact (hv.suffix.trans hk.suffix).trans hl.suffix

theorem ResultBlock.suffix {payload stream rest : Bytes} (h : ResultBlock e payload stream rest) :
    rest <:+ stream := by
  obtain ⟨hl, hs⟩ := h
  exact hs.suffix.trans hl.suffix

theorem Body.suffix {attributes : List Attribute} {payload stream rest : Bytes}
    (h : Body e attributes payload stream rest) : rest <:+ stream := by
  induction h with
  | result hr => exact hr.suffix
  | attr ha _ ih => exact ih.trans ha.suffix

theorem Framed.suffix {attributes : List Attribute} {payload stream rest : Bytes}
    (h : Framed e attributes payload stream rest) : rest <:+ stream := by
  obtain ⟨hl, hb⟩ := h
  exact hb.suffix.trans hl.suffix

/-! ### More octets behind a reply -/

/-- A line stays the first one whatever is added to the stream, unless its end was the end of the
stream. -/
theorem Line.append {text stream rest : Bytes} (h : Line e text stream rest)
    (hr : e = .silent ∨ rest ≠ []) (e' : Ending) (more : Bytes) :
    Line e' text (stream ++ more) (rest ++ more) := by
  cases h with
  | ended hl =>
    rw [List.append_assoc, List.cons_append]
    exact .ended hl
  | last hc _ _ =>
    rcases hr with rfl | hr
    · exact absurd hc (by decide)
    · exact absurd rfl hr

theorem Sized.append {part stream rest : Bytes} (h : Sized .silent part stream rest) (e : Ending)
    (more : Bytes) : Sized e part (stream ++ more) (rest ++ more) := by
  obtain ⟨hl, hs⟩ := h
  have hl' := hl.append (.inl rfl) e more
  rw [List.append_assoc] at hl'
  exact .intro hl' hs

theorem Field.append {marker part stream rest : Bytes} (h : Field .silent marker part stream rest)
    (e : Ending) (more : Bytes) : Field e marker part (stream ++ more) (rest ++ more) := by
  obtain ⟨hl, hs⟩ := h
  exact .intro (hl.append (.inl rfl) e more) (hs.append e more)

theorem AttributeBlock.append {a : Attribute} {stream rest : Bytes}
    (h : AttributeBlock .silent a stream rest) (e : Ending) (more : Bytes) :
    AttributeBlock e a (stream ++ more) (rest ++ more) := by
  obtain ⟨hl, hk, hv⟩ := h
  exact .intro (hl.append (.inl rfl) e more) (hk.append e more) (hv.append e more)

theorem Attributes.append {attributes : List Attribute} {stream rest : Bytes}
    (h : Attributes .silent attributes stream rest) (e : Ending) (more : Bytes) :
    Attributes e attributes (stream ++ more) (rest ++ more) := by
  induction h with
  | nil => exact .nil
  | cons ha _ ih => exact .cons (ha.append e more) ih

theorem ResultBlock.append {payload stream rest : Bytes}
    (h : ResultBlock .silent payload stream rest) (e : Ending) (more : Bytes) :
    ResultBlock e payload (stream ++ more) (rest ++ more) := by
  obtain ⟨hl, hs⟩ := h
  exact .intro (hl.append (.inl rfl) e more) (hs.append e more)

theorem Body.append {attributes : List Attribute} {payload stream rest : Bytes}
    (h : Body .silent attributes payload stream rest) (e : Ending) (more : Bytes) :
    Body e attributes payload (stream ++ more) (rest ++ more) := by
  induction h with
  | result hr => exact .result (hr.append e more)
  | attr ha _ ih => exact .attr (ha.append e more) ih

theorem Framed.append {attributes : List Attribute} {payload stream rest : Bytes}
    (h : Framed .silent attributes payload stream rest) (e : Ending) (more : Bytes) :
    Framed e attributes payload (stream ++ more) (rest ++ more) := by
  obtain ⟨hl, hb⟩ := h
  exact .intro (hl.append (.inl rfl) e more) (hb.append e more)

/-! ### Nothing behind -/

/-- A line whose end is not that of the stream is one without what is behind it, too. -/
theorem Line.strip {text stream rest : Bytes} (h : Line .silent text stream rest) :
    ∃ line, stream = line ++ rest ∧ Line .silent text line [] := by
  cases h with
  | @ended l rest hl => exact ⟨l ++ [newline], by simp, .ended hl⟩
  | last hc _ _ => exact absurd hc (by decide)

theorem Sized.strip {part stream rest : Bytes} (h : Sized .silent part stream rest) :
    ∃ sized, stream = sized ++ rest ∧ Sized .silent part sized [] := by
  obtain ⟨hl, hs⟩ := h
  obtain ⟨line, rfl, hline⟩ := hl.strip
  have hpart := hline.append (.inl rfl) .silent (part ++ [])
  exact ⟨line ++ (part ++ []), by simp, .intro hpart hs⟩

theorem Field.strip {marker part stream rest : Bytes} (h : Field .silent marker part stream rest) :
    ∃ field, stream = field ++ rest ∧ Field .silent marker part field [] := by
  obtain ⟨hl, hs⟩ := h
  obtain ⟨sized, rfl, hsized⟩ := hs.strip
  obtain ⟨line, rfl, hline⟩ := hl.strip
  have hmarker := hline.append (.inl rfl) .silent (sized ++ [newline])
  exact ⟨line ++ (sized ++ [newline]), by simp, .intro hmarker (hsized.append .silent [newline])⟩

theorem AttributeBlock.strip {a : Attribute} {stream rest : Bytes}
    (h : AttributeBlock .silent a stream rest) :
    ∃ block, stream = block ++ rest ∧ AttributeBlock .silent a block [] := by
  obtain ⟨hl, hk, hv⟩ := h
  obtain ⟨value, rfl, hvalue⟩ := hv.strip
  obtain ⟨key, rfl, hkey⟩ := hk.strip
  obtain ⟨line, rfl, hline⟩ := hl.strip
  have hheader := hline.append (.inl rfl) .silent (key ++ value)
  exact ⟨line ++ (key ++ value), by simp, .intro hheader (hkey.append .silent value) hvalue⟩

theorem Attributes.strip {attributes : List Attribute} {stream rest : Bytes}
    (h : Attributes .silent attributes stream rest) :
    ∃ blocks, stream = blocks ++ rest ∧ Attributes .silent attributes blocks [] := by
  induction h with
  | nil => exact ⟨[], rfl, .nil⟩
  | cons ha _ ih =>
    obtain ⟨blocks, rfl, hattributes⟩ := ih
    obtain ⟨block, rfl, hblock⟩ := ha.strip
    exact ⟨block ++ blocks, by simp, .cons (hblock.append .silent blocks) hattributes⟩

end ImageScoring.Reply
