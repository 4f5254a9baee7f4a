import ImageScoring.Proofs.Reply.Sequence

/-!
# Writing replies

What a worker writes to tell attributes and a result: every length in decimal digits, a newline
behind every part. Whatever octets the parts hold, the sessions of a stream of such replies read
back what was written.
-/

namespace ImageScoring.Reply

open Reader (dropReturn)

/-- What a reply has to tell. Every part is short enough for its length to be told. -/
structure Content where
  attributes : List Attribute
  payload : Bytes
  keys_fit : ∀ a ∈ attributes, a.key.length < Count.lengthLimit
  values_fit : ∀ a ∈ attributes, a.value.length < Count.lengthLimit
  payload_fits : payload.length < Count.lengthLimit

/-- The octets of a line. -/
def writeLine (text : Bytes) : Bytes :=
  text ++ [newline]

/-- The octets of a sized part. -/
def writeSized (part : Bytes) : Bytes :=
  writeLine (Count.line part.length) ++ part

/-- The octets of a part of an attribute. -/
def writeField (marker part : Bytes) : Bytes :=
  writeLine marker ++ writeSized part ++ [newline]

/-- The octets of an attribute. -/
def writeAttribute (a : Attribute) : Bytes :=
  writeLine attributeLine ++ writeField keyMarker a.key ++ writeField valueMarker a.value

namespace Content

/-- The octets of a reply up to the end of its result. -/
def toResult (c : Content) : Bytes :=
  writeLine beginLine ++ c.attributes.flatMap writeAttribute ++ writeLine resultLine ++
    writeSized c.payload

/-- The octets of a reply. -/
def encode (c : Content) : Bytes :=
  c.toResult ++ [newline]

end Content

variable {e : Ending}

/-! ### What is written is in the grammar -/

theorem line_of_write {text : Bytes} (hn : newline ∉ text)
    (hr : text.getLast? ≠ some carriageReturn) (rest : Bytes) :
    Line e text (writeLine text ++ rest) rest := by
  have hd : dropReturn text = text := if_neg hr
  have hl : Line e (dropReturn text) (text ++ newline :: rest) rest := .ended hn
  rw [hd] at hl
  rw [writeLine, List.append_assoc]
  exact hl

theorem newline_notMem_countLine (n : Nat) : newline ∉ Count.line n := fun h =>
  absurd (Count.toNat_of_mem_line h) (by decide)

theorem getLast?_countLine (n : Nat) : (Count.line n).getLast? ≠ some carriageReturn := fun h =>
  absurd (Count.toNat_of_mem_line (List.mem_of_getLast? h)) (by decide)

/-- The digits of a length are a line that spells it. -/
theorem line_of_count (n : Nat) (rest : Bytes) :
    Line e (Count.line n) (writeLine (Count.line n) ++ rest) rest :=
  line_of_write (newline_notMem_countLine n) (getLast?_countLine n) rest

theorem sized_of_write {part : Bytes} (h : part.length < Count.lengthLimit) (rest : Bytes) :
    Sized e part (writeSized part ++ rest) rest := by
  rw [writeSized, List.append_assoc]
  exact .intro (line_of_count part.length (part ++ rest)) (Count.spells_line h)

theorem field_of_write {marker part : Bytes} (hn : newline ∉ marker)
    (hr : marker.getLast? ≠ some carriageReturn) (h : part.length < Count.lengthLimit)
    (rest : Bytes) : Field e marker part (writeField marker part ++ rest) rest := by
  rw [writeField, List.append_assoc, List.append_assoc]
  exact .intro (line_of_write hn hr _) (sized_of_write h _)

theorem attributeBlock_of_write {a : Attribute} (hk : a.key.length < Count.lengthLimit)
    (hv : a.value.length < Count.lengthLimit) (rest : Bytes) :
    AttributeBlock e a (writeAttribute a ++ rest) rest := by
  rw [writeAttribute, List.append_assoc, List.append_assoc]
  refine .intro (line_of_write (by decide) (by decide) _) (field_of_write ?_ ?_ hk _)
    (field_of_write ?_ ?_ hv rest)
  all_goals decide

theorem body_of_write {attributes : List Attribute} {payload : Bytes}
    (hk : ∀ a ∈ attributes, a.key.length < Count.lengthLimit)
    (hv : ∀ a ∈ attributes, a.value.length < Count.lengthLimit)
    (hp : payload.length < Count.lengthLimit) (rest : Bytes) :
    Body e attributes payload
      (attributes.flatMap writeAttribute ++ (writeLine resultLine ++ (writeSized payload ++ rest)))
      rest := by
  induction attributes with
  | nil =>
    have hl : Line e resultLine (writeLine resultLine ++ (writeSized payload ++ rest))
        (writeSized payload ++ rest) := line_of_write (by decide) (by decide) _
    exact .result (.intro hl (sized_of_write hp rest))
  | cons a attributes ih =>
    rw [List.flatMap_cons, List.append_assoc]
    exact .attr (attributeBlock_of_write (hk a (by simp)) (hv a (by simp)) _)
      (ih (fun b hb => hk b (by simp [hb])) (fun b hb => hv b (by simp [hb])))

namespace Content

theorem framed (c : Content) (rest : Bytes) :
    Framed e c.attributes c.payload (c.toResult ++ rest) rest := by
  simp only [toResult, List.append_assoc]
  exact .intro (line_of_write (by decide) (by decide) _)
    (body_of_write c.keys_fit c.values_fit c.payload_fits rest)

/-- The reply that tells a content. -/
def wellFormed (c : Content) : WellFormed :=
  ⟨c.encode, c.attributes, c.payload, c.framed [newline]⟩

theorem octets_wellFormed (contents : List Content) :
    (contents.map wellFormed).flatMap WellFormed.octets = contents.flatMap encode := by
  rw [List.flatMap_map]
  rfl

theorem attributes_wellFormed (contents : List Content) :
    (contents.map wellFormed).flatMap WellFormed.attributes = contents.flatMap attributes := by
  rw [List.flatMap_map]
  rfl

end Content

namespace Session

variable {ω : Type}

/-- **Replies read back as they were written.** Sessions read a stream of replies, one after another
from one reader, and something follows. Each session tells the result of its own reply and how many
attributes it has, hands exactly these to the sink, in order, and leaves the reader right behind the
result. -/
theorem nth_of_encode (take : ω → Attribute → ω) (earlier : List Content) (c : Content)
    (following : Bytes) (e : Ending) (store : ω) :
    nth (accepting take) earlier.length
        { rest := earlier.flatMap Content.encode ++ (c.toResult ++ following), ending := e } store =
      ⟨.ok (.completed (Prefix.value c.payload) c.attributes.length),
        ⟨.done, c.attributes.length⟩,
        { rest := following, ending := e, skipBlank := true },
        c.attributes.foldl take ((earlier.flatMap Content.attributes).foldl take store)⟩ := by
  have hr : Ready ((earlier.map Content.wellFormed).flatMap WellFormed.octets ++
      (c.toResult ++ following))
      { rest := earlier.flatMap Content.encode ++ (c.toResult ++ following), ending := e } := by
    rw [Content.octets_wellFormed]
    exact .fresh
  obtain ⟨r, hafter, hready, hending⟩ := ready_after_wellFormed take _ hr store
  rw [List.length_map, Content.attributes_wellFormed] at hafter
  obtain ⟨hl, hb⟩ := c.framed (e := r.ending) following
  rw [nth, hafter, run_of_ready hready hl,
    records_of_accepted hb rfl 0 (offer_accepting take _ c.attributes), Nat.zero_add, hending]

end Session

end ImageScoring.Reply
