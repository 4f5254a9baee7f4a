import ImageScoring.Proofs.Reply.Acceptance

/-!
# Sessions one after another

Replies stand back to back on one stream, and one session after another reads them from one reader.
`Session.after` runs sessions, `Session.nth` is one of them. A reader is `Ready` for a stream if the
next session will find a reply at its beginning: nothing or an empty line stands before it, or the
reader is to find its next `BEGIN` and there is none in what stands before (`Junk`). A reader that
has read a well-formed reply is ready for whatever comes behind it.
-/

namespace ImageScoring.Reply

open Reader (dropReturn)

variable {ω : Type}

/-- A well-formed reply: its octets are framed, up to the newline behind the result. -/
structure WellFormed where
  octets : Bytes
  attributes : List Attribute
  payload : Bytes
  framed : Framed .silent attributes payload octets [newline]

/-- The outcome that a well-formed reply tells. -/
def WellFormed.outcome (reply : WellFormed) : Outcome :=
  .completed (Prefix.value reply.payload) reply.attributes.length

/-- Whole lines, none of which is `BEGIN`. -/
inductive Junk : Bytes → Prop where
  | nil : Junk []
  | line {l rest : Bytes} : newline ∉ l → dropReturn l ≠ beginLine → Junk rest →
      Junk (l ++ newline :: rest)

/-- What is an empty line to the reader, or no line at all. -/
inductive Blank : Bytes → Prop where
  | nothing : Blank []
  | newline : Blank [newline]
  | returned : Blank [carriageReturn, newline]

/-- The reader is at the beginning of the stream, or right behind a result, a newline or less before
the stream, or it is to find the next `BEGIN` and there is none before the stream. -/
inductive Ready (stream : Bytes) : Reader → Prop where
  | fresh {e : Ending} : Ready stream { rest := stream, ending := e }
  | behind {e : Ending} {blank : Bytes} : Blank blank →
      Ready stream { rest := blank ++ stream, ending := e, skipBlank := true }
  | lost {e : Ending} {skip : Bool} {junk : Bytes} : Junk junk →
      Ready stream { rest := junk ++ stream, ending := e, skipBlank := skip, resync := true }

end Reply

namespace Reader

open Reply

variable {e : Ending}

/-! ### Finding the beginning -/

theorem line_of_newline {l stream : Bytes} (hl : newline ∉ l) {skip resync : Bool} :
    line { rest := l ++ newline :: stream, ending := e, skipBlank := skip, resync := resync } =
      .ok (dropReturn l, { rest := stream, ending := e, skipBlank := skip, resync := resync }) := by
  have h : Line e (dropReturn l) (l ++ newline :: stream) stream := .ended hl
  rw [line_of h]

/-- One empty line behind a result makes no difference to the next header. -/
theorem header_of_blank {blank stream : Bytes} (hb : Blank blank)
    (hne : blank = [] → ∃ text rest, Line e text stream rest ∧ text ≠ []) :
    header { rest := blank ++ stream, ending := e, skipBlank := true } =
      header { rest := stream, ending := e } := by
  have hskip : headerLine { rest := blank ++ stream, ending := e, skipBlank := true } =
      headerLine { rest := stream, ending := e } := by
    rw [headerLine_of_skipBlank (r := { rest := stream, ending := e }) rfl]
    cases hb with
    | nothing =>
      obtain ⟨text, rest, hl, ht⟩ := hne rfl
      rw [headerLine, line_of (r := { rest := stream, ending := e }) hl]
      rw [show ([] : Bytes) ++ stream = stream from rfl,
        line_of (r := { rest := stream, ending := e, skipBlank := true }) hl]
      simp [ht]
    | newline =>
      rw [headerLine, show [newline] ++ stream = [] ++ newline :: stream from rfl,
        line_of_newline (by simp)]
      rfl
    | returned =>
      rw [headerLine,
        show [carriageReturn, newline] ++ stream = [carriageReturn] ++ newline :: stream from rfl,
        line_of_newline (by decide)]
      rfl
  rw [header, hskip, header]

theorem seekBegin_eq (r : Reader) :
    r.seekBegin = match r.line with
      | .error fault => .error fault
      | .ok (line, r') =>
        if line = beginLine then .ok { r' with skipBlank := false } else r'.seekBegin := by
  rw [seekBegin]
  split
  · next heq => rw [heq]
  · next heq => rw [heq]

/-- The next `BEGIN` is found behind junk. -/
theorem seekBegin_of_junk {junk stream s : Bytes} (hj : Junk junk) (h : Line e beginLine stream s)
    {skip resync : Bool} :
    seekBegin { rest := junk ++ stream, ending := e, skipBlank := skip, resync := resync } =
      .ok { rest := s, ending := e, skipBlank := false, resync := resync } := by
  induction hj with
  | nil =>
    rw [List.nil_append, seekBegin_eq,
      line_of (r := { rest := stream, ending := e, skipBlank := skip, resync := resync }) h]
    rfl
  | line hl hne _ ih =>
    rw [List.append_assoc, List.cons_append, seekBegin_eq, line_of_newline hl]
    simp only [if_neg hne]
    exact ih

end Reader

namespace Reply

open Reader (dropReturn)

variable {ω : Type} {sink : Sink ω} {e : Ending}

namespace Session

/-- A session of a reader that is ready for a reply gets behind its `BEGIN`. -/
theorem run_of_ready {stream s : Bytes} {r : Reader} (hr : Ready stream r)
    (h : Line r.ending beginLine stream s) (store : ω) :
    run sink {} r store = records sink 0 { rest := s, ending := r.ending } store := by
  cases hr with
  | fresh => exact run_of_line h store
  | behind hb =>
    have hne : beginLine ≠ [] := by decide
    have hh := Reader.header_of_blank hb fun _ => ⟨beginLine, s, h, hne⟩
    rw [header_of_line h] at hh
    simp only [run, hh]
    rfl
  | lost hj =>
    simp only [run, Reader.seekBegin_of_junk hj h]
    rfl

/-! ### Well-formed replies -/

/-- A well-formed reply whose attributes the sink accepts costs a session all of its octets but the
last newline, and the session tells what it says, whatever comes behind it. -/
theorem run_of_accepted (reply : WellFormed) {more : Bytes} {r : Reader}
    (hr : Ready (reply.octets ++ more) r) {store store' : ω}
    (ho : offer sink store reply.attributes = (store', .ok ())) :
    run sink {} r store =
      ⟨.ok reply.outcome, ⟨.done, reply.attributes.length⟩,
        { rest := newline :: more, ending := r.ending, skipBlank := true }, store'⟩ := by
  obtain ⟨hl, hb⟩ := reply.framed.append r.ending more
  rw [run_of_ready hr hl, records_of_accepted hb rfl 0 ho, Nat.zero_add]
  rfl

theorem run_of_wellFormed (reply : WellFormed) (take : ω → Attribute → ω) {more : Bytes}
    {r : Reader} (hr : Ready (reply.octets ++ more) r) (store : ω) :
    run (accepting take) {} r store =
      ⟨.ok reply.outcome, ⟨.done, reply.attributes.length⟩,
        { rest := newline :: more, ending := r.ending, skipBlank := true },
        reply.attributes.foldl take store⟩ :=
  run_of_accepted reply hr (offer_accepting take store reply.attributes)

/-- If the sink refuses an attribute of a well-formed reply, the reader is left inside the reply,
with no note of it. -/
theorem run_of_refused (reply : WellFormed) {more : Bytes} {r : Reader}
    (hr : Ready (reply.octets ++ more) r) {store store' : ω} {err : Error} {left : List Attribute}
    (ho : offer sink store reply.attributes = (store', .error (err, left))) :
    ∃ s taken, s <:+ reply.octets ∧ Body .silent left reply.payload s [newline] ∧
      run sink {} r store =
        ⟨.error err, ⟨.inSession, taken⟩, { rest := s ++ more, ending := r.ending }, store'⟩ := by
  obtain ⟨hl, hb⟩ := reply.framed
  obtain ⟨s, taken, hs, hb', hrun⟩ := records_of_refused hb more r.ending 0 ho
  refine ⟨s, taken, hs.trans hl.suffix, hb', ?_⟩
  rw [run_of_ready hr (hl.append (.inl rfl) r.ending more), hrun]

/-- A session that starts inside a reply takes its next line for a malformed beginning. -/
theorem run_inside (sink : Sink ω) {left : List Attribute} {payload s last : Bytes}
    (h : Body .silent left payload s last) (more : Bytes) (e : Ending) (store : ω) :
    ∃ l s', newline ∉ l ∧ s = l ++ newline :: s' ∧
      run sink {} { rest := s ++ more, ending := e } store =
        ⟨.ok (.framing (.missingBegin (dropReturn l))), ⟨.failed, 0⟩,
          { rest := s' ++ more, ending := e, resync := true }, store⟩ := by
  obtain ⟨text, s', hl, htext⟩ := h.line
  have hh := (Reader.header_eq_ok_iff (r := { rest := s ++ more, ending := e }) rfl).mpr
    ⟨text, s' ++ more, hl.append (.inl rfl) e more, rfl, rfl⟩
  cases hl with
  | @ended l _ hn =>
    refine ⟨l, s', hn, rfl, ?_⟩
    rcases htext with htext | htext
    · rw [htext, Header.ofLine_eq_attr_iff.mpr rfl] at hh
      rw [htext]
      simp only [run, hh]
      rfl
    · rw [htext, Header.ofLine_eq_result_iff.mpr rfl] at hh
      rw [htext]
      simp only [run, hh]
      rfl
  | last hc _ _ => exact absurd hc (by decide)

/-- The reader and the store after that many sessions, one after another. -/
def after (sink : Sink ω) : Nat → Reader → ω → Reader × ω
  | 0, r, store => (r, store)
  | n + 1, r, store =>
    let first := run sink {} r store
    after sink n first.reader first.store

/-- The run of one session of many on one reader; `n` came before it. -/
def nth (sink : Sink ω) (n : Nat) (r : Reader) (store : ω) : Run ω :=
  run sink {} (after sink n r store).1 (after sink n r store).2

theorem after_add (sink : Sink ω) (m n : Nat) (r : Reader) (store : ω) :
    after sink (m + n) r store =
      after sink n (after sink m r store).1 (after sink m r store).2 := by
  induction m generalizing r store with
  | zero => rw [Nat.zero_add]; rfl
  | succ m ih =>
    rw [Nat.add_right_comm]
    exact ih _ _

theorem ready_behind_result {stream : Bytes} :
    Ready stream { rest := newline :: stream, ending := e, skipBlank := true } :=
  .behind .newline

/-- After well-formed replies the reader stands right behind the last result. -/
theorem after_wellFormed (take : ω → Attribute → ω) {more : Bytes} :
    ∀ (replies : List WellFormed) {r : Reader} (store : ω), replies ≠ [] →
      Ready (replies.flatMap WellFormed.octets ++ more) r →
      after (accepting take) replies.length r store =
        ({ rest := newline :: more, ending := r.ending, skipBlank := true },
          (replies.flatMap WellFormed.attributes).foldl take store)
  | [], _, _, h, _ => absurd rfl h
  | [reply], r, store, _, hr => by
    rw [List.flatMap_singleton] at hr ⊢
    simp only [List.length_singleton, after, run_of_wellFormed reply take hr store]
  | reply :: next :: replies, r, store, _, hr => by
    rw [List.flatMap_cons, List.append_assoc] at hr
    have hattributes : (reply :: next :: replies).flatMap WellFormed.attributes =
        reply.attributes ++ (next :: replies).flatMap WellFormed.attributes := List.flatMap_cons
    rw [List.length_cons, after, run_of_wellFormed reply take hr store, hattributes,
      List.foldl_append]
    exact after_wellFormed take (next :: replies) _ (by simp) ready_behind_result

/-- After well-formed replies the reader is ready for what comes behind them. -/
theorem ready_after_wellFormed (take : ω → Attribute → ω) (replies : List WellFormed) {more : Bytes}
    {r : Reader} (hr : Ready (replies.flatMap WellFormed.octets ++ more) r) (store : ω) :
    ∃ r', after (accepting take) replies.length r store =
        (r', (replies.flatMap WellFormed.attributes).foldl take store) ∧
      Ready more r' ∧ r'.ending = r.ending := by
  by_cases h : replies = []
  · subst h
    exact ⟨r, rfl, hr, rfl⟩
  · exact ⟨_, after_wellFormed take replies store h hr, ready_behind_result, rfl⟩

end Session
end Reply

end ImageScoring
