import ImageScoring.Proofs.Reply.Reading
import ImageScoring.Reply.Session

/-!
# A session accepts exactly the framed replies

A session that reads a framed reply hands its attributes to the sink one after the other (`offer`)
and completes, or stops at the first attribute that the sink refuses. Conversely a session that
completes has read a framed reply. With a sink that accepts everything this is the main statement:
a session completes exactly on the streams that start with a framed reply, and tells what it says.
-/

namespace ImageScoring.Reply

variable {ω : Type}

/-- A sink that accepts every attribute. -/
def accepting (take : ω → Attribute → ω) : Sink ω :=
  fun store a => (take store a, .ok ())

/-- The store after attributes are handed to a sink in order, up to the first that it refuses; told
are its error and the attributes behind that one. -/
def offer (sink : Sink ω) (store : ω) : List Attribute → ω × Except (Error × List Attribute) Unit
  | [] => (store, .ok ())
  | a :: attributes =>
    match sink store a with
    | (store, .ok ()) => offer sink store attributes
    | (store, .error e) => (store, .error (e, attributes))

theorem offer_accepting (take : ω → Attribute → ω) (store : ω) (attributes : List Attribute) :
    offer (accepting take) store attributes = (attributes.foldl take store, .ok ()) := by
  induction attributes generalizing store with
  | nil => rfl
  | cons a attributes ih => exact ih (take store a)

/-- A fault of the stream is an I/O error, unless nothing more can be waited for. -/
theorem faultError_eq_io_iff {fault : ReadFault} {cause : String} :
    faultError fault = .io cause ↔ fault ≠ .hung ∧ cause = fault.message := by
  cases fault with
  | hung => simp [faultError]
  | closedInRecord => simp [faultError, eq_comm]
  | closedInPayload received expected => simp [faultError, eq_comm]
  | closedAtTerminator => simp [faultError, eq_comm]

namespace Session

variable {sink : Sink ω} {e : Ending}

/-! ### One record -/

theorem records_eq (sink : Sink ω) (count : Nat) (r : Reader) (store : ω) :
    records sink count r store =
      match r.record with
      | .error fault => broken ⟨.inSession, count⟩ fault r store
      | .ok (.opening, r') => malformed ⟨.inSession, count⟩ .duplicateBegin r' store
      | .ok (.malformed error, r') => malformed ⟨.inSession, count⟩ error r' store
      | .ok (.result value, r') => ⟨.ok (.completed value count), ⟨.done, count⟩, r', store⟩
      | .ok (.attr a, r') =>
        match sink store a with
        | (store, .ok ()) => records sink (count + 1) r' store
        | (store, .error e) => ⟨.error e, ⟨.inSession, count⟩, r', store⟩ := by
  rw [records]
  split
  · next heq => rw [heq]
  · next heq => rw [heq]
  · next heq => rw [heq]
  · next heq => rw [heq]
  · next heq => exact heq ▸ rfl

theorem records_of_result {count : Nat} {r : Reader} {store : ω} {payload rest : Bytes}
    (hs : r.skipBlank = false) (h : ResultBlock r.ending payload r.rest rest) :
    records sink count r store = ⟨.ok (.completed (Prefix.value payload) count), ⟨.done, count⟩,
      { r with rest := rest, skipBlank := true }, store⟩ := by
  rw [records_eq, (Reader.record_eq_result_iff hs).mpr ⟨payload, rest, h, rfl, rfl⟩]

theorem records_of_attr {count : Nat} {r : Reader} {store : ω} {a : Attribute} {rest : Bytes}
    (hs : r.skipBlank = false) (h : AttributeBlock r.ending a r.rest rest) :
    records sink count r store = match sink store a with
      | (store, .ok ()) => records sink (count + 1) { r with rest := rest } store
      | (store, .error e) => ⟨.error e, ⟨.inSession, count⟩, { r with rest := rest }, store⟩ := by
  rw [records_eq, (Reader.record_eq_attr_iff hs).mpr ⟨rest, h, rfl⟩]

/-! ### A whole body -/

/-- A session reads over attributes that its sink accepts. -/
theorem records_of_attributes {attributes : List Attribute} {r : Reader} {rest : Bytes}
    (h : Attributes r.ending attributes r.rest rest) (hs : r.skipBlank = false) (count : Nat)
    {store store' : ω} (ho : offer sink store attributes = (store', .ok ())) :
    records sink count r store =
      records sink (count + attributes.length) { r with rest := rest } store' := by
  obtain ⟨stream, e, skip, resync⟩ := r
  dsimp only at h hs
  induction h generalizing count store with
  | nil =>
    obtain rfl : store = store' := (Prod.mk.inj ho).1
    rfl
  | @cons a attributes stream s rest ha _ ih =>
    rw [records_of_attr hs ha]
    rw [offer] at ho
    rcases hsink : sink store a with ⟨store₁, err | ⟨⟩⟩
    · simp [hsink] at ho
    · rw [hsink] at ho
      dsimp only
      rw [ih (count + 1) ho, List.length_cons, Nat.add_right_comm, Nat.add_assoc]

/-- What a session makes of a body whose attributes the sink accepts. -/
theorem records_of_accepted {attributes : List Attribute} {payload rest : Bytes} {r : Reader}
    (h : Body r.ending attributes payload r.rest rest) (hs : r.skipBlank = false) (count : Nat)
    {store store' : ω} (ho : offer sink store attributes = (store', .ok ())) :
    records sink count r store =
      ⟨.ok (.completed (Prefix.value payload) (count + attributes.length)),
        ⟨.done, count + attributes.length⟩, { r with rest := rest, skipBlank := true },
        store'⟩ := by
  rw [← List.append_nil attributes] at h
  obtain ⟨s, hattributes, hbody⟩ := h.split
  cases hbody with
  | result hr =>
    rw [records_of_attributes hattributes hs count ho,
      records_of_result (r := { r with rest := s }) hs hr]

/-- What a session makes of a body with an attribute that the sink refuses: it stops right behind
that attribute, and the reader stands before the rest of the body. -/
theorem records_of_refused {attributes left : List Attribute} {payload stream last : Bytes}
    (h : Body .silent attributes payload stream last) (more : Bytes) (e : Ending) (count : Nat)
    {store store' : ω} {err : Error}
    (ho : offer sink store attributes = (store', .error (err, left))) :
    ∃ s taken, s <:+ stream ∧ Body .silent left payload s last ∧
      records sink count { rest := stream ++ more, ending := e } store =
        ⟨.error err, ⟨.inSession, taken⟩, { rest := s ++ more, ending := e }, store'⟩ := by
  induction h generalizing count store with
  | result hr => simp [offer] at ho
  | @attr a attributes payload stream s rest ha hb ih =>
    rw [records_of_attr (r := { rest := stream ++ more, ending := e }) rfl (ha.append e more)]
    rw [offer] at ho
    rcases hsink : sink store a with ⟨store₁, err' | ⟨⟩⟩
    · rw [hsink] at ho
      simp only [Prod.mk.injEq, Except.error.injEq] at ho
      obtain ⟨rfl, rfl, rfl⟩ := ho
      exact ⟨s, count, ha.suffix, hb, rfl⟩
    · rw [hsink] at ho
      obtain ⟨s', taken, hs, hb', hrun⟩ := ih (count + 1) ho
      exact ⟨s', taken, hs.trans ha.suffix, hb', hrun⟩

/-- A session that completes has read a body, all of whose attributes the sink accepted. -/
theorem body_of_records {count n : Nat} {r : Reader} {store : ω} {value : Binary64}
    (hs : r.skipBlank = false)
    (h : (records sink count r store).answer = .ok (.completed value n)) :
    ∃ attributes payload rest, Body r.ending attributes payload r.rest rest ∧
      (offer sink store attributes).2 = .ok () := by
  induction hl : r.rest.length using Nat.strong_induction_on generalizing r count store with
  | _ length ih =>
    subst hl
    rw [records_eq] at h
    split at h
    · simp [broken] at h
    · simp [malformed] at h
    · simp [malformed] at h
    · next heq =>
      obtain ⟨payload, rest, hr, -, -⟩ := (Reader.record_eq_result_iff hs).mp heq
      exact ⟨[], payload, rest, .result hr, rfl⟩
    · next a r' heq =>
      have hlt := Reader.length_of_record_eq_attr heq
      obtain ⟨s, ha, rfl⟩ := (Reader.record_eq_attr_iff hs).mp heq
      split at h
      · next store' hsink =>
        obtain ⟨attributes, payload, rest, hb, ho⟩ := ih _ hlt (r := { r with rest := s }) hs h rfl
        refine ⟨a :: attributes, payload, rest, .attr ha hb, ?_⟩
        rw [offer, hsink]
        exact ho
      · simp at h

/-! ### A whole reply -/

/-- What a run can come to: it is refused, it goes on behind a `BEGIN`, the stream has a fault, or
another line stands where `BEGIN` has to. -/
theorem run_cases (sink : Sink ω) (s : Session) (r : Reader) (store : ω) :
    run sink s r store = ⟨.error finishedError, s, r, store⟩ ∨
      (∃ r', run sink s r store = records sink s.attributes r' store) ∨
      (∃ fault r', run sink s r store = broken s fault r' store) ∨
      ∃ line r', run sink s r store = malformed s (.missingBegin line) r' store := by
  unfold run
  split
  · exact .inl rfl
  · exact .inl rfl
  · exact .inr (.inl ⟨r, rfl⟩)
  · split
    · dsimp only
      split
      · exact .inr (.inr (.inl ⟨_, _, rfl⟩))
      · exact .inr (.inl ⟨_, rfl⟩)
    · split
      · exact .inr (.inr (.inl ⟨_, _, rfl⟩))
      · exact .inr (.inl ⟨_, rfl⟩)
      · exact .inr (.inr (.inr ⟨_, _, rfl⟩))

/-- A session only sees its reader's next header first. -/
theorem run_of_header_eq {r r' : Reader} {store : ω} {outcome : Outcome} (hr : r.resync = false)
    (hr' : r'.resync = false) (hh : r.header = r'.header)
    (h : (run sink {} r store).answer = .ok outcome) :
    run sink {} r' store = run sink {} r store := by
  simp only [run, hr, hr', Bool.false_eq_true, if_false] at h ⊢
  rw [← hh]
  cases hx : r.header with
  | error fault => simp [hx, broken] at h
  | ok answer =>
    obtain ⟨_ | _ | _ | _, _⟩ := answer
    all_goals rfl

theorem header_of_line {stream s : Bytes} (h : Line e beginLine stream s) :
    Reader.header { rest := stream, ending := e } = .ok (.opening, { rest := s, ending := e }) := by
  rw [(Reader.header_eq_ok_iff (r := { rest := stream, ending := e }) rfl).mpr
    ⟨beginLine, s, h, rfl, rfl⟩, Header.ofLine_eq_opening_iff.mpr rfl]

/-- A fresh reader in front of a reply gets its session behind `BEGIN`. -/
theorem run_of_line {stream s : Bytes} (h : Line e beginLine stream s) (store : ω) :
    run sink {} { rest := stream, ending := e } store =
      records sink 0 { rest := s, ending := e } store := by
  simp only [run, header_of_line h]
  rfl

theorem run_of_framed {attributes : List Attribute} {payload stream rest : Bytes}
    (h : Framed e attributes payload stream rest) {store store' : ω}
    (ho : offer sink store attributes = (store', .ok ())) :
    run sink {} { rest := stream, ending := e } store =
      ⟨.ok (.completed (Prefix.value payload) attributes.length), ⟨.done, attributes.length⟩,
        { rest := rest, ending := e, skipBlank := true }, store'⟩ := by
  obtain ⟨hl, hb⟩ := h
  rw [run_of_line hl, records_of_accepted hb rfl 0 ho, Nat.zero_add]

theorem framed_of_run {stream : Bytes} {store : ω} {value : Binary64} {n : Nat}
    (h : (run sink {} { rest := stream, ending := e } store).answer = .ok (.completed value n)) :
    ∃ attributes payload rest, Framed e attributes payload stream rest := by
  simp only [run] at h
  split at h
  · contradiction
  · split at h
    · simp [broken] at h
    · next r hh =>
      obtain ⟨text, s, hl, htext, rfl⟩ := (Reader.header_eq_ok_iff rfl).mp hh
      rw [Header.ofLine_eq_opening_iff.mp htext.symm] at hl
      obtain ⟨attributes, payload, rest, hb, -⟩ := body_of_records rfl h
      exact ⟨attributes, payload, rest, .intro hl hb⟩
    · simp [malformed] at h

/-- **A session accepts exactly the framed replies.** With a sink that accepts everything, a session
completes exactly if the stream starts with a framed reply. That reply is then the only one that the
stream starts with; its result and the number of its attributes are the answer, its attributes are
what the sink took, and the reader is left right behind it. -/
theorem run_accepts_iff_framed (take : ω → Attribute → ω) (stream : Bytes) (e : Ending)
    (store : ω) :
    ((∃ value count, (run (accepting take) {} { rest := stream, ending := e } store).answer =
        .ok (.completed value count)) ↔
      ∃ attributes payload rest, Framed e attributes payload stream rest) ∧
    ∀ attributes payload rest, Framed e attributes payload stream rest →
      run (accepting take) {} { rest := stream, ending := e } store =
        ⟨.ok (.completed (Prefix.value payload) attributes.length), ⟨.done, attributes.length⟩,
          { rest := rest, ending := e, skipBlank := true }, attributes.foldl take store⟩ ∧
      (∃ reply, stream = reply ++ rest) ∧
      ∀ attributes' payload' rest', Framed e attributes' payload' stream rest' →
        attributes' = attributes ∧ payload' = payload ∧ rest' = rest := by
  refine ⟨⟨?_, ?_⟩, ?_⟩
  · rintro ⟨value, count, h⟩
    exact framed_of_run h
  · rintro ⟨attributes, payload, rest, h⟩
    exact ⟨Prefix.value payload, attributes.length,
      by rw [run_of_framed h (offer_accepting take store attributes)]⟩
  · intro attributes payload rest h
    obtain ⟨reply, hreply⟩ := h.suffix
    exact ⟨run_of_framed h (offer_accepting take store attributes), ⟨reply, hreply.symm⟩,
      fun _ _ _ h' => h'.unique h⟩

end Session
end ImageScoring.Reply
