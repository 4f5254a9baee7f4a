import ImageScoring.Proofs.Reply.Acceptance

/-!
# Replies as far as they go

A stream may start with a reply that has begun: `BEGIN` and whole attributes, and something else
behind these (`Opened`). A session reads as many attributes as there are (`exists_attributes`). So
if it meets a malformed reply, the attributes that it has handed to its sink are those that stand
before what is malformed (`malformed_of_run`).
-/

namespace ImageScoring

namespace Reply

variable {e : Ending}

/-- A reply that has begun: `BEGIN`, and whole attributes. -/
inductive Opened (e : Ending) : List Attribute → Bytes → Bytes → Prop where
  | intro {attributes : List Attribute} {stream s rest : Bytes} : Line e beginLine stream s →
      Attributes e attributes s rest → Opened e attributes stream rest

/-- A reply that is malformed behind these attributes: it does not begin with `BEGIN`, or what
stands behind its attributes is neither another one nor a result. -/
inductive Malformed (e : Ending) : List Attribute → Bytes → Prop where
  | unopened {text stream rest : Bytes} : Line e text stream rest → text ≠ beginLine →
      Malformed e [] stream
  | opened {attributes : List Attribute} {stream s : Bytes} : Opened e attributes stream s →
      (∀ a rest, ¬AttributeBlock e a s rest) → (∀ payload rest, ¬ResultBlock e payload s rest) →
      Malformed e attributes stream

/-! ### Attributes in a row -/

theorem Opened.append {attributes : List Attribute} {stream rest : Bytes}
    (h : Opened .silent attributes stream rest) (e : Ending) (more : Bytes) :
    Opened e attributes (stream ++ more) (rest ++ more) := by
  obtain ⟨hl, ha⟩ := h
  exact .intro (hl.append (.inl rfl) e more) (ha.append e more)

theorem Opened.strip {attributes : List Attribute} {stream rest : Bytes}
    (h : Opened .silent attributes stream rest) :
    ∃ opening, stream = opening ++ rest ∧ Opened .silent attributes opening [] := by
  obtain ⟨hl, ha⟩ := h
  obtain ⟨blocks, rfl, hblocks⟩ := ha.strip
  obtain ⟨line, rfl, hline⟩ := hl.strip
  have hbegin := hline.append (.inl rfl) .silent blocks
  exact ⟨line ++ blocks, by simp, .intro hbegin hblocks⟩

/-- What stands behind some attributes of a body is a body. -/
theorem Attributes.body {taken attributes : List Attribute} {payload stream s rest : Bytes}
    (h : Attributes e taken stream s) (hb : Body e attributes payload stream rest) :
    ∃ left, attributes = taken ++ left ∧ Body e left payload s rest := by
  induction h generalizing attributes with
  | nil => exact ⟨attributes, rfl, hb⟩
  | cons ha _ ih =>
    cases hb with
    | result hr => exact (ha.not_resultBlock hr).elim
    | attr ha' hb' =>
      obtain ⟨rfl, rfl⟩ := ha.unique ha'
      obtain ⟨left, rfl, hleft⟩ := ih hb'
      exact ⟨left, rfl, hleft⟩

end Reply

namespace Reader

/-- The stream that the next header is the first line of: one empty line is skipped if the last
reply left one. -/
def upcoming (r : Reader) : Bytes :=
  match r.skipBlank, r.line with
  | true, .ok ([], after) => after.rest
  | _, _ => r.rest

/-- Whether an empty line is to be skipped makes no difference to the line that is read. -/
theorem line_skipBlank (r : Reader) (skip : Bool) :
    line { r with skipBlank := skip } =
      r.line.map fun answer => (answer.1, { answer.2 with skipBlank := skip }) := by
  unfold line line?
  dsimp only
  cases r.rest.dropWhile (· != newline) with
  | cons _ rest => rfl
  | nil =>
    cases r.ending with
    | silent => rfl
    | closed =>
      cases (r.rest.takeWhile (· != newline)).isEmpty with
      | true => rfl
      | false => rfl

theorem header_upcoming (r : Reader) :
    r.header = header { r with rest := r.upcoming, skipBlank := false } := by
  have hline : r.headerLine = line { r with rest := r.upcoming, skipBlank := false } := by
    have hsame := r.line_skipBlank false
    unfold headerLine upcoming
    rcases hl : r.line with fault | ⟨text, after⟩
    · rw [hl] at hsame
      cases r.skipBlank with
      | true => exact hsame.symm
      | false => exact hsame.symm
    · rw [hl] at hsame
      obtain ⟨rest, -, rfl⟩ := line_eq_ok_iff.mp hl
      cases r.skipBlank with
      | false => exact hsame.symm
      | true =>
        cases text with
        | nil => rfl
        | cons b text => exact hsame.symm
  rw [header, header, hline, headerLine_of_skipBlank rfl]

end Reader

namespace Reply

namespace Session

variable {ω : Type} {sink : Sink ω} {e : Ending}

/-- A new reader in front of a reply that has begun gets its session behind the attributes. -/
theorem run_of_opened {attributes : List Attribute} {stream rest : Bytes}
    (h : Opened e attributes stream rest) {store store' : ω}
    (ho : offer sink store attributes = (store', .ok ())) :
    run sink {} { rest := stream, ending := e } store =
      records sink attributes.length { rest := rest, ending := e } store' := by
  obtain ⟨hl, ha⟩ := h
  rw [run_of_line hl, records_of_attributes ha rfl 0 ho, Nat.zero_add]

/-- There are only so many attributes in a row. -/
theorem exists_attributes (e : Ending) (stream : Bytes) :
    ∃ attributes s, Attributes e attributes stream s ∧ ∀ a rest, ¬AttributeBlock e a s rest := by
  induction hlength : stream.length using Nat.strong_induction_on generalizing stream with
  | _ length ih =>
    subst hlength
    by_cases hmore : ∃ a s, AttributeBlock e a stream s
    · obtain ⟨a, s, ha⟩ := hmore
      have hread := (Reader.record_eq_attr_iff (r := { rest := stream, ending := e }) rfl).mpr
        ⟨s, ha, rfl⟩
      have hshorter : s.length < stream.length := Reader.length_of_record_eq_attr hread
      obtain ⟨attributes, s', hattributes, hno⟩ := ih _ hshorter s rfl
      exact ⟨a :: attributes, s', .cons ha hattributes, hno⟩
    · exact ⟨[], stream, .nil, fun a s ha => hmore ⟨a, s, ha⟩⟩

/-! ### Malformed replies -/

theorem malformed_of_fresh {take : ω → Attribute → ω} {stream : Bytes} {store : ω}
    {error : FramingError} {fresh : Run ω}
    (hfresh : run (accepting take) {} { rest := stream, ending := e } store = fresh)
    (h : fresh.answer = .ok (.framing error)) :
    ∃ attributes, Malformed e attributes stream ∧ fresh.store = attributes.foldl take store := by
  have hrun := hfresh
  simp only [run] at hrun
  split at hrun
  · contradiction
  · split at hrun
    · subst hrun
      simp [broken] at h
    · next r' hheader =>
      obtain ⟨text, s, hline, htext, rfl⟩ := (Reader.header_eq_ok_iff rfl).mp hheader
      rw [Header.ofLine_eq_opening_iff.mp htext.symm] at hline
      obtain ⟨attributes, s', hattributes, hno⟩ := exists_attributes e s
      have hopened : Opened e attributes stream s' := .intro hline hattributes
      rw [run_of_opened hopened (offer_accepting take store attributes), records_eq] at hfresh
      refine ⟨attributes, .opened hopened hno fun payload rest hresult => ?_, ?_⟩
      · rw [(Reader.record_eq_result_iff (r := { rest := s', ending := e }) rfl).mpr
          ⟨payload, rest, hresult, rfl, rfl⟩] at hfresh
        subst hfresh
        simp at h
      · split at hfresh
        · subst hfresh
          simp [broken] at h
        · rw [← hfresh]
          rfl
        · rw [← hfresh]
          rfl
        · subst hfresh
          simp at h
        · next a r' hrecord =>
          obtain ⟨rest, ha, -⟩ := (Reader.record_eq_attr_iff rfl).mp hrecord
          exact absurd ha (hno a rest)
    · next header r' hno hheader =>
      obtain ⟨text, s, hline, htext, rfl⟩ := (Reader.header_eq_ok_iff rfl).mp hheader
      refine ⟨[], .unopened hline fun hbegin => ?_, ?_⟩
      · exact hno (htext.trans (Header.ofLine_eq_opening_iff.mpr hbegin))
      · rw [← hrun]
        rfl

/-- What a session leaves behind `BEGIN` has no note if what it has met is not malformed. -/
theorem resync_of_well_records {count : Nat} {r : Reader} {store : ω} (hs : r.skipBlank = false)
    (hr : r.resync = false)
    (h : ∀ error, (records sink count r store).answer ≠ .ok (.framing error)) :
    (records sink count r store).reader.resync = false := by
  induction hlength : r.rest.length using Nat.strong_induction_on generalizing r count store with
  | _ length ih =>
    subst hlength
    rw [records_eq] at h ⊢
    split at h
    · exact hr
    · exact absurd rfl (h _)
    · exact absurd rfl (h _)
    · next value r' hrecord =>
      obtain ⟨payload, rest, -, -, rfl⟩ := (Reader.record_eq_result_iff hs).mp hrecord
      exact hr
    · next a r' hrecord =>
      have hshorter := Reader.length_of_record_eq_attr hrecord
      obtain ⟨rest, -, rfl⟩ := (Reader.record_eq_attr_iff hs).mp hrecord
      split at h
      · exact ih _ hshorter (r := { r with rest := rest }) hs hr h rfl
      · exact hr

/-- A session that meets nothing malformed leaves no note. -/
theorem resync_of_well_run {r : Reader} {store : ω} (hr : r.resync = false)
    (h : ∀ error, (run sink {} r store).answer ≠ .ok (.framing error)) :
    (run sink {} r store).reader.resync = false := by
  have hheader := r.header_upcoming
  simp only [run, hr, Bool.false_eq_true, if_false] at h ⊢
  split at h
  · exact hr
  · next r' heq =>
    rw [heq] at hheader
    obtain ⟨text, rest, -, -, rfl⟩ := (Reader.header_eq_ok_iff rfl).mp hheader.symm
    exact resync_of_well_records rfl hr h
  · exact absurd rfl (h _)

/-- **A session that meets a malformed reply has handed over the attributes before the error**, and
nothing else. -/
theorem malformed_of_run {take : ω → Attribute → ω} {r : Reader} {store : ω} {error : FramingError}
    (hr : r.resync = false)
    (h : (run (accepting take) {} r store).answer = .ok (.framing error)) :
    ∃ attributes, Malformed r.ending attributes r.upcoming ∧
      (run (accepting take) {} r store).store = attributes.foldl take store := by
  have hheader : r.header = Reader.header { rest := r.upcoming, ending := r.ending } := by
    rw [Reader.header_upcoming, hr]
  have hrun := run_of_header_eq hr rfl hheader h
  rw [← hrun] at h ⊢
  exact malformed_of_fresh rfl h

end Session

end Reply

end ImageScoring
