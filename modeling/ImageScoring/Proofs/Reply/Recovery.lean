import ImageScoring.Proofs.Reply.Encoding
import ImageScoring.Proofs.Reply.Growth

/-!
# Recovering from a bad reply

A session has no sign of where a request's reply ends but the reply itself. So whether one bad reply
costs only its own request depends on what its session leaves of it: the next session finds its own
reply unless a `BEGIN` line of the bad one is left, or there was a result and more than an empty
line is left behind it.
-/

namespace ImageScoring.Reply

open Reader (dropReturn)
open Session (after nth alone)

variable {ω : Type}

/-- Session number `n` of a reader completes with what that reply tells, and hands exactly the
attributes of that reply to the sink. -/
def Tells (take : ω → Attribute → ω) (n : Nat) (r : Reader) (store : ω) (reply : WellFormed) :
    Prop :=
  (nth (accepting take) n r store).answer = .ok reply.outcome ∧
    (nth (accepting take) n r store).store =
      reply.attributes.foldl take (after (accepting take) n r store).2

/-- A bad reply costs only its own request: whatever well-formed replies stand before it and behind
it, the sessions of these tell what they say. -/
def Confined (bad : Bytes) : Prop :=
  ∀ (ω : Type) (take : ω → Attribute → ω) (store : ω) (e : Ending)
    (before behind : List WellFormed),
    let stream := before.flatMap WellFormed.octets ++ (bad ++ behind.flatMap WellFormed.octets)
    (∀ (i : Nat) (h : i < before.length),
      Tells take i { rest := stream, ending := e } store before[i]) ∧
    ∀ (i : Nat) (h : i < behind.length),
      Tells take (before.length + 1 + i) { rest := stream, ending := e } store behind[i]

/-- A run leaves nothing of its reply that the next session could take for a reply: nothing but an
empty line behind a result, no `BEGIN` behind what is malformed. -/
def Harmless (run : Run ω) : Prop :=
  match run.answer with
  | .ok (.completed _ _) => Blank run.reader.rest
  | .ok (.framing _) => Junk run.reader.rest
  | .error _ => False

namespace Session

variable {sink : Sink ω} {e : Ending}

/-! ### What a session leaves -/

theorem resync_of_records {count : Nat} {r : Reader} {store : ω} {error : FramingError}
    (h : (records sink count r store).answer = .ok (.framing error)) :
    (records sink count r store).reader.resync = true := by
  induction hl : r.rest.length using Nat.strong_induction_on generalizing r count store with
  | _ length ih =>
    subst hl
    rw [records_eq] at h ⊢
    split at h
    · simp [broken] at h
    · rfl
    · rfl
    · simp at h
    · next a r' heq =>
      split at h
      · next hsink =>
        have := ih _ (Reader.length_of_record_eq_attr heq) h rfl
        simpa [hsink] using this
      · simp at h

/-- A malformed reply leaves the note that the next session needs. -/
theorem resync_of_run {s : Session} {r : Reader} {store : ω} {error : FramingError}
    (h : (run sink s r store).answer = .ok (.framing error)) :
    (run sink s r store).reader.resync = true := by
  obtain hrun | ⟨r', hrun⟩ | ⟨fault, r', hrun⟩ | ⟨line, r', hrun⟩ := run_cases sink s r store
  · simp [hrun] at h
  · rw [hrun] at h ⊢
    exact resync_of_records h
  · simp [hrun, broken] at h
  · rw [hrun]
    rfl

/-! ### The sessions of well-formed replies -/

theorem tells_of_ready (take : ω → Attribute → ω) (replies : List WellFormed) (more : Bytes)
    {r : Reader} (hr : Ready (replies.flatMap WellFormed.octets ++ more) r) (store : ω) (i : Nat)
    (h : i < replies.length) : Tells take i r store replies[i] := by
  have hsplit : replies = replies.take i ++ replies[i] :: replies.drop (i + 1) := by
    rw [← List.drop_eq_getElem_cons h, List.take_append_drop]
  have hstream : replies.flatMap WellFormed.octets ++ more =
      (replies.take i).flatMap WellFormed.octets ++ (replies[i].octets ++
        ((replies.drop (i + 1)).flatMap WellFormed.octets ++ more)) := by
    conv_lhs => rw [hsplit]
    rw [List.flatMap_append, List.flatMap_cons, List.append_assoc, List.append_assoc]
  rw [hstream] at hr
  obtain ⟨r', hafter, hready, -⟩ := ready_after_wellFormed take _ hr store
  rw [List.length_take_of_le (Nat.le_of_lt h)] at hafter
  unfold Tells
  rw [nth, hafter, run_of_wellFormed replies[i] take hready]
  exact ⟨rfl, rfl⟩

theorem tells_add {take : ω → Attribute → ω} {m n : Nat} {r : Reader} {store : ω}
    {reply : WellFormed} :
    Tells take (m + n) r store reply ↔
      Tells take n (after (accepting take) m r store).1 (after (accepting take) m r store).2
        reply := by
  unfold Tells nth
  rw [after_add]

/-- The session of a bad reply goes as it would go alone, whatever well-formed replies come before
it and whatever comes behind it. -/
theorem same_after_wellFormed {bad : Bytes} {outcome : Outcome} (hw : Whole bad)
    (h : (alone bad).answer = .ok outcome) (more : Bytes) (take : ω → Attribute → ω) (store : ω)
    (before : List WellFormed) (e : Ending) :
    Same more e (alone bad) (nth (accepting take) before.length
      { rest := before.flatMap WellFormed.octets ++ (bad ++ more), ending := e } store) := by
  by_cases hb : before = []
  · subst hb
    exact run_grow hw h more e take store
  · rw [nth, after_wellFormed take before store hb .fresh]
    have hg := run_grow hw h more e take
      ((before.flatMap WellFormed.attributes).foldl take store)
    have hh : Reader.header { rest := [newline] ++ (bad ++ more), ending := e, skipBlank := true } =
        Reader.header { rest := bad ++ more, ending := e } :=
      Reader.header_of_blank .newline (by simp)
    rw [← run_of_header_eq rfl rfl hh.symm (hg.answer.trans h)] at hg
    exact hg

/-! ### A harmless reply -/

theorem ready_of_harmless {bad : Bytes} {outcome : Outcome} (h : (alone bad).answer = .ok outcome)
    (hh : Harmless (alone bad)) (more : Bytes) (e : Ending) :
    Ready more ((alone bad).reader.grow more e) := by
  unfold Harmless at hh
  cases outcome with
  | completed value count =>
    obtain ⟨attributes, payload, rest, hf⟩ := framed_of_run h
    rw [h] at hh
    rw [alone, run_of_framed hf (offer_accepting _ () attributes)] at hh ⊢
    exact .behind hh
  | framing error =>
    have hresync : (alone bad).reader.resync = true := resync_of_run h
    rw [h] at hh
    generalize (alone bad).reader = r at hresync hh ⊢
    obtain ⟨rest, ending, skip, resync⟩ := r
    obtain rfl : resync = true := hresync
    exact .lost hh

/-- If a bad reply leaves nothing harmful, it costs only its own request. -/
theorem confined_of_harmless {bad : Bytes} {outcome : Outcome} (hw : Whole bad)
    (h : (alone bad).answer = .ok outcome) (hh : Harmless (alone bad)) : Confined bad := by
  intro ω take store e before behind
  refine ⟨fun i hi => ?_, fun i hi => ?_⟩
  · exact tells_of_ready take before _ .fresh store i hi
  · have hs := same_after_wellFormed hw h (behind.flatMap WellFormed.octets) take store before e
    rw [tells_add, after_add]
    have hr := ready_of_harmless h hh (behind.flatMap WellFormed.octets) e
    rw [← hs.reader] at hr
    refine tells_of_ready take behind [] ?_ _ i hi
    rw [List.append_nil]
    exact hr

end Session

/-! ### A reply of many empty attributes

An empty attribute that starts in whole lines ends in them. So whole lines that are not over cannot
be read as the beginning of a reply that has more empty attributes than they have octets. -/

variable {e : Ending}

/-- `Inside lines tail s`: some of the lines before `tail` were taken away, and `s` is left. -/
def Inside (lines tail s : Bytes) : Prop :=
  ∃ left, s = left ++ tail ∧ Whole left ∧ left.length < lines.length

theorem Inside.trans {lines lines' tail s : Bytes} (h : lines'.length < lines.length)
    (hi : Inside lines' tail s) : Inside lines tail s := by
  obtain ⟨left, hs, hw, hl⟩ := hi
  exact ⟨left, hs, hw, hl.trans h⟩

theorem inside_of_line {lines tail text s t : Bytes} (hw : Whole lines)
    (ht : Line e beginLine tail t) (h : Line e text (lines ++ tail) s) (hne : text ≠ beginLine) :
    Inside lines tail s := by
  by_cases hn : lines = []
  · rw [hn, List.nil_append] at h
    exact absurd (h.unique ht).1 hne
  · obtain ⟨l, left, hl, rfl, hw'⟩ := exists_line_of_whole hw hn
    rw [List.append_assoc, List.cons_append] at h
    refine ⟨left, (h.unique (.ended hl)).2, hw', ?_⟩
    rw [List.length_append, List.length_cons]
    omega

theorem inside_of_sized {lines tail s t : Bytes} (hw : Whole lines) (ht : Line e beginLine tail t)
    (h : Sized e [] (lines ++ tail) s) : Inside lines tail s := by
  obtain ⟨hl, hs⟩ := h
  refine inside_of_line hw ht hl ?_
  rintro rfl
  rw [← Count.ofLine?_eq_some_iff] at hs
  exact absurd hs (by decide)

theorem inside_of_field {lines marker tail s t : Bytes} (hw : Whole lines)
    (ht : Line e beginLine tail t) (hm : marker ≠ beginLine)
    (h : Field e marker [] (lines ++ tail) s) : Inside lines tail s := by
  obtain ⟨hl, hs⟩ := h
  obtain ⟨left, rfl, hw₁, hlt₁⟩ := inside_of_line hw ht hl hm
  obtain ⟨left', hnext, hw₂, hlt₂⟩ := inside_of_sized hw₁ ht hs
  cases left' with
  | nil =>
    -- the newline behind the part would be the first octet of `BEGIN`
    rw [List.nil_append] at hnext
    rw [← hnext] at ht
    have hempty : Line e (dropReturn []) ([] ++ newline :: s) s := .ended (by simp)
    exact absurd (ht.unique hempty).1 (by decide)
  | cons b left' =>
    obtain ⟨-, rfl⟩ := List.cons.inj hnext
    refine ⟨left', rfl, hw₂.suffix (List.suffix_cons b left'), ?_⟩
    rw [List.length_cons] at hlt₂
    omega

theorem inside_of_attributeBlock {lines tail s t : Bytes} (hw : Whole lines)
    (ht : Line e beginLine tail t) (h : AttributeBlock e ⟨[], []⟩ (lines ++ tail) s) :
    Inside lines tail s := by
  obtain ⟨hl, hk, hv⟩ := h
  obtain ⟨left₁, rfl, hw₁, hlt₁⟩ := inside_of_line hw ht hl (by decide)
  obtain ⟨left₂, rfl, hw₂, hlt₂⟩ := inside_of_field hw₁ ht (by decide) hk
  exact (inside_of_field hw₂ ht (by decide) hv).trans (hlt₂.trans hlt₁)

theorem length_le_of_body {lines tail payload stream rest t : Bytes} {attributes : List Attribute}
    (h : Body e attributes payload stream rest) (hs : stream = lines ++ tail) (hw : Whole lines)
    (ht : Line e beginLine tail t) (ha : ∀ a ∈ attributes, a = ⟨[], []⟩) :
    attributes.length ≤ lines.length := by
  induction h generalizing lines with
  | result _ => exact Nat.zero_le _
  | @attr a attributes payload stream s rest hab _ ih =>
    rw [ha a (by simp), hs] at hab
    obtain ⟨left, hleft, hw', hlt⟩ := inside_of_attributeBlock hw ht hab
    have := ih hleft hw' fun b hb => ha b (by simp [hb])
    rw [List.length_cons]
    omega

/-- A content of so many empty attributes. -/
def Content.empties (count : Nat) : Content where
  attributes := List.replicate count ⟨[], []⟩
  payload := []
  keys_fit a ha := by rw [List.eq_of_mem_replicate ha]; decide
  values_fit a ha := by rw [List.eq_of_mem_replicate ha]; decide
  payload_fits := by decide

/-- An accepting sink that keeps what it takes, last first. -/
def collect (taken : List Attribute) (a : Attribute) : List Attribute :=
  a :: taken

namespace Session

/-- A session that begins in whole lines before a reply of more empty attributes than these have
octets does not tell that reply. -/
theorem not_told {lines : Bytes} {count : Nat} {store : List Attribute} (hw : Whole lines)
    (hc : lines.length < count) {run : Run (List Attribute)}
    (hrun : run = records (accepting collect) 0
      { rest := lines ++ (Content.empties count).encode, ending := e } store)
    (ha : run.answer = .ok (Content.empties count).wellFormed.outcome) :
    run.store ≠ (Content.empties count).attributes.foldl collect store := by
  intro hstore
  rw [hrun] at ha hstore
  obtain ⟨attributes, payload, rest, hb, -⟩ := body_of_records rfl ha
  rw [records_of_accepted hb rfl 0 (offer_accepting collect store attributes)] at hstore
  have hrev : attributes.reverse ++ store =
      (Content.empties count).attributes.reverse ++ store := by
    rw [← List.foldl_flip_cons_eq_append', ← List.foldl_flip_cons_eq_append']
    exact hstore
  have hattributes : attributes = List.replicate count ⟨[], []⟩ :=
    List.reverse_inj.mp (List.append_cancel_right hrev)
  obtain ⟨ht, -⟩ := (Content.empties count).framed (e := e) [newline]
  have hle := length_le_of_body hb rfl hw ht fun a ha => by
    rw [hattributes] at ha
    exact List.eq_of_mem_replicate ha
  rw [hattributes, List.length_replicate] at hle
  omega

end Session

/-! ### A harmful reply -/

theorem eq_of_dropReturn_eq_nil {l : Bytes} (h : dropReturn l = []) :
    l = [] ∨ l = [carriageReturn] := by
  unfold dropReturn at h
  split at h
  · next hlast =>
    obtain ⟨init, rfl⟩ := List.getLast?_eq_some_iff.mp hlast
    rw [List.dropLast_concat] at h
    exact .inr (by rw [h, List.nil_append])
  · exact .inl h

/-- Whole lines that are not blank have lines behind what a reader would skip. -/
theorem exists_lines_of_not_blank {stream : Bytes} (hw : Whole stream) (hb : ¬Blank stream) :
    ∃ blank lines, stream = blank ++ lines ∧ Blank blank ∧ Whole lines ∧ lines ≠ [] ∧
      ∀ (e : Ending) (tail : Bytes), blank = [] →
        ∃ text rest, Line e text (lines ++ tail) rest ∧ text ≠ [] := by
  have hne : stream ≠ [] := by
    rintro rfl
    exact hb .nothing
  obtain ⟨l, rest, hl, rfl, hw'⟩ := exists_line_of_whole hw hne
  by_cases htext : dropReturn l = []
  · have hblank : Blank (l ++ [newline]) := by
      rcases eq_of_dropReturn_eq_nil htext with rfl | rfl
      · exact .newline
      · exact .returned
    refine ⟨l ++ [newline], rest, by simp, hblank, hw', ?_, fun _ _ h => by simp at h⟩
    rintro rfl
    exact hb hblank
  · refine ⟨[], l ++ newline :: rest, rfl, .nothing, hw, hne, fun e tail _ => ?_⟩
    refine ⟨dropReturn l, rest ++ tail, ?_, htext⟩
    rw [List.append_assoc, List.cons_append]
    exact .ended hl

theorem Junk.not_begin {l rest : Bytes} (h : Junk (l ++ newline :: rest)) (hl : newline ∉ l) :
    dropReturn l ≠ beginLine := by
  generalize hs : l ++ newline :: rest = stream at h
  cases h with
  | nil => simp at hs
  | line hl' hne _ =>
    have h' : Line .silent (dropReturn l) (l ++ newline :: rest) rest := .ended hl
    rw [hs] at h'
    rwa [(h'.unique (.ended hl')).1]

/-- Before every stream's first `BEGIN` that a newline ends stands junk; without one, junk and what
is left of a line. -/
theorem exists_junk (stream : Bytes) : ∃ junk tail, Junk junk ∧ stream = junk ++ tail ∧
    (newline ∉ tail ∨
      ∃ l rest, newline ∉ l ∧ dropReturn l = beginLine ∧ tail = l ++ newline :: rest) := by
  induction hlength : stream.length using Nat.strong_induction_on generalizing stream with
  | _ length ih =>
    subst hlength
    by_cases hline : newline ∈ stream
    · obtain ⟨l, rest, rfl, hl⟩ := List.eq_append_cons_of_mem hline
      by_cases htext : dropReturn l = beginLine
      · exact ⟨[], _, .nil, rfl, .inr ⟨l, rest, hl, htext, rfl⟩⟩
      · have hshorter : rest.length < (l ++ newline :: rest).length := by
          rw [List.length_append, List.length_cons]
          omega
        obtain ⟨junk, tail, hjunk, rfl, htail⟩ := ih _ hshorter rest rfl
        refine ⟨l ++ newline :: junk, tail, .line hl htext hjunk, ?_, htail⟩
        rw [List.append_assoc, List.cons_append]
    · exact ⟨[], stream, .nil, rfl, .inl hline⟩

/-- Whole lines are junk, or there is a first `BEGIN` among them. -/
theorem junk_or_begin {stream : Bytes} (hw : Whole stream) :
    Junk stream ∨ ∃ junk l rest, Junk junk ∧ newline ∉ l ∧ dropReturn l = beginLine ∧
      stream = junk ++ (l ++ newline :: rest) ∧ Whole rest := by
  obtain ⟨junk, tail, hjunk, rfl, hno | ⟨l, rest, hl, htext, rfl⟩⟩ := exists_junk stream
  · have htail : Whole tail := hw.suffix (List.suffix_append junk tail)
    obtain rfl : tail = [] := by
      by_contra hne
      exact hno (List.mem_of_getLast? (htail.resolve_left hne))
    rw [List.append_nil]
    exact .inl hjunk
  · have hsuffix : rest <:+ junk ++ (l ++ newline :: rest) :=
      ((List.suffix_cons newline rest).trans (List.suffix_append l _)).trans
        (List.suffix_append junk _)
    exact .inr ⟨junk, l, rest, hjunk, hl, htext, rfl, hw.suffix hsuffix⟩

namespace Session

/-- Behind a result that leaves more than an empty line, the next session begins in what is left. -/
theorem begins_in_rest {blank lines tail : Bytes} {store : List Attribute} {value : Binary64}
    {count : Nat} (hb : Blank blank) (hw : Whole lines) (hne : lines ≠ [])
    (hl : blank = [] → ∃ text rest, Line e text (lines ++ tail) rest ∧ text ≠ [])
    (h : (run (accepting collect) {}
      { rest := blank ++ (lines ++ tail), ending := e, skipBlank := true } store).answer =
        .ok (.completed value count)) :
    ∃ left, Whole left ∧ left.length < lines.length ∧
      run (accepting collect) {}
          { rest := blank ++ (lines ++ tail), ending := e, skipBlank := true } store =
        records (accepting collect) 0 { rest := left ++ tail, ending := e } store := by
  have hh := Reader.header_of_blank (e := e) hb hl
  have hrun := run_of_header_eq rfl rfl hh h
  rw [← hrun] at h ⊢
  obtain ⟨attributes, payload, rest, ⟨hbegin, -⟩⟩ := framed_of_run h
  obtain ⟨l, left, hnl, rfl, hw'⟩ := exists_line_of_whole hw hne
  rw [run_of_line hbegin]
  rw [List.append_assoc, List.cons_append] at hbegin
  refine ⟨left, hw', ?_, by rw [(hbegin.unique (.ended hnl)).2]⟩
  rw [List.length_append, List.length_cons]
  omega

/-- If a bad reply costs only its own request, the session behind it tells a reply of empty
attributes. -/
theorem told_of_confined {bad : Bytes} {outcome : Outcome} (hw : Whole bad)
    (h : (alone bad).answer = .ok outcome) (hc : Confined bad) (count : Nat) :
    ∃ store, (run (accepting collect) {}
        ((alone bad).reader.grow (Content.empties count).encode .silent) store).answer =
          .ok (Content.empties count).wellFormed.outcome ∧
      (run (accepting collect) {}
        ((alone bad).reader.grow (Content.empties count).encode .silent) store).store =
          (Content.empties count).attributes.foldl collect store := by
  have hs := run_grow hw h (Content.empties count).encode .silent collect []
  obtain ⟨-, ht⟩ := hc _ collect [] .silent [] [(Content.empties count).wellFormed]
  have htold := ht 0 (by simp)
  have hstream : [(Content.empties count).wellFormed].flatMap WellFormed.octets =
      (Content.empties count).encode := List.flatMap_singleton ..
  rw [hstream] at htold
  rw [← hs.reader]
  exact ⟨_, htold⟩

/-- If a bad reply costs only its own request, it leaves nothing harmful. -/
theorem harmless_of_confined {bad : Bytes} {outcome : Outcome} (hw : Whole bad)
    (h : (alone bad).answer = .ok outcome) (hc : Confined bad) : Harmless (alone bad) := by
  have hwhole : Whole (alone bad).reader.rest :=
    (run_grow hw h [] .silent (fun _ _ => ()) ()).whole
  -- the reply behind the bad one has more attributes than the bad one leaves octets
  obtain ⟨count, hcount⟩ : ∃ count, (alone bad).reader.rest.length < count :=
    ⟨_, Nat.lt_succ_self _⟩
  obtain ⟨store, ha, hstore⟩ := told_of_confined hw h hc count
  cases outcome with
  | completed value count =>
    obtain ⟨attributes, payload, rest, hf⟩ := framed_of_run h
    have halone : alone bad = ⟨.ok (.completed (Prefix.value payload) attributes.length),
        ⟨.done, attributes.length⟩, { rest := rest, skipBlank := true }, _⟩ :=
      run_of_framed hf (offer_accepting _ () attributes)
    rw [halone] at hwhole hcount ha hstore ⊢
    dsimp only [Reader.grow] at hwhole hcount ha hstore
    by_contra hb
    obtain ⟨blank, lines, rfl, hblank, hw', hne, hl⟩ := exists_lines_of_not_blank hwhole hb
    rw [List.append_assoc] at ha hstore
    obtain ⟨left, hw'', hlt, hrun⟩ := begins_in_rest hblank hw' hne (hl _ _) ha
    rw [List.length_append] at hcount
    exact not_told hw'' (by omega) hrun ha hstore
  | framing error =>
    have hresync : (alone bad).reader.resync = true := resync_of_run h
    rw [Harmless, h]
    rcases junk_or_begin hwhole with hj | ⟨junk, l, left, hj, hl, htext, hrest, hw'⟩
    · exact hj
    · exfalso
      generalize (alone bad).reader = r at hresync hcount ha hstore hrest
      obtain ⟨stream, ending, skip, resync⟩ := r
      obtain rfl : resync = true := hresync
      obtain rfl : stream = junk ++ (l ++ newline :: left) := hrest
      dsimp only [Reader.grow] at hcount ha hstore
      rw [List.append_assoc] at ha hstore
      have hbegin : Line .silent beginLine
          ((l ++ newline :: left) ++ (Content.empties count).encode)
          (left ++ (Content.empties count).encode) := by
        rw [← htext, List.append_assoc, List.cons_append]
        exact .ended hl
      rw [List.length_append, List.length_append, List.length_cons] at hcount
      exact not_told hw' (by omega) (run_of_ready (.lost hj) hbegin store) ha hstore

/-- **What a bad reply costs.** Take a bad reply of whole lines whose session, alone, ends without
needing more. It costs only its own request exactly if its session leaves nothing harmful: no
`BEGIN` line if it is malformed, nothing but an empty line if it has a result. -/
theorem confined_iff_harmless {bad : Bytes} {outcome : Outcome} (hw : bad.getLast? = some newline)
    (h : (alone bad).answer = .ok outcome) : Confined bad ↔ Harmless (alone bad) :=
  ⟨harmless_of_confined (.inr hw) h, confined_of_harmless (.inr hw) h⟩

/-- A stray line is malformed, and nothing is left of it. -/
theorem stray_line_confined_iff :
    (ascii "X\n").getLast? = some newline ∧
      (alone (ascii "X\n")).answer = .ok (.framing (.missingBegin (ascii "X"))) ∧
      (Confined (ascii "X\n") ↔ Harmless (alone (ascii "X\n"))) :=
  ⟨by decide, by rfl, confined_iff_harmless (by decide) rfl⟩

/-- A stray line before a reply costs another request: the session behind it tells that reply. -/
theorem stray_line_before_reply_not_confined :
    (ascii "X\nBEGIN\nRESULT\n1\n9\n").getLast? = some newline ∧
      (alone (ascii "X\nBEGIN\nRESULT\n1\n9\n")).answer =
        .ok (.framing (.missingBegin (ascii "X"))) ∧
      ¬Confined (ascii "X\nBEGIN\nRESULT\n1\n9\n") := by
  refine ⟨by decide, by rfl, fun hc => ?_⟩
  have hh : Junk (ascii "BEGIN\nRESULT\n1\n9\n") :=
    harmless_of_confined (.inr (by decide)) (by rfl) hc
  exact hh.not_begin (l := beginLine) (by decide) rfl

end Session

end ImageScoring.Reply
