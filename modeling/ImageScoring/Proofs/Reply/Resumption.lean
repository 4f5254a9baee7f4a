import ImageScoring.Proofs.Reply.Sequence
import ImageScoring.Proofs.Worker.Storing

/-!
# Running a session again

A session that was broken off by its sink stands right behind the attribute that was refused, and
running it again goes on there. `Due` says which attributes and which result a session is about to
read, before its first run and between two runs; a refusal leads from there to what is due behind
the refused attribute (`run_of_refusal`). However often a session is run, it has counted what its
sinks have taken (`Tallied.runs`), and once it has told an outcome it does nothing any more
(`runs_of_ended`).
-/

namespace ImageScoring.Reply

variable {ω : Type} {e : Ending}

/-! ### Records that have been read -/

theorem AttributeBlock.newline_suffix {a : Attribute} {stream rest : Bytes}
    (h : AttributeBlock e a stream rest) : newline :: rest <:+ stream := by
  obtain ⟨hline, hkey, hvalue⟩ := h
  obtain ⟨hmarker, hsized⟩ := hvalue
  exact ((hsized.suffix.trans hmarker.suffix).trans hkey.suffix).trans hline.suffix

theorem Attributes.suffix {attributes : List Attribute} {stream rest : Bytes}
    (h : Attributes e attributes stream rest) : rest <:+ stream := by
  induction h with
  | nil => exact List.suffix_rfl
  | cons ha _ ih => exact ih.trans ha.suffix

theorem Attributes.concat {attributes : List Attribute} {a : Attribute} {stream s rest : Bytes}
    (h : Attributes e attributes stream s) (ha : AttributeBlock e a s rest) :
    Attributes e (attributes ++ [a]) stream rest := by
  induction h with
  | nil => exact .cons ha .nil
  | cons hfirst _ ih => exact .cons hfirst (ih ha)

/-! ### What is due -/

/-- The session is about to read these attributes and this result, which `stream` starts with, and
`rest` is left behind the result. It has not begun, and the reader is ready for a reply with that
behind its `BEGIN`, or it has read up to there. -/
inductive Due (attributes : List Attribute) (payload stream rest : Bytes) :
    Session → Reader → Prop where
  | opening {reply : Bytes} {r : Reader} : Ready reply r → Line r.ending beginLine reply stream →
      Body r.ending attributes payload stream rest → Due attributes payload stream rest {} r
  | inside {ending : Ending} {count : Nat} : Body ending attributes payload stream rest →
      Due attributes payload stream rest ⟨.inSession, count⟩ { rest := stream, ending := ending }

theorem Due.body {attributes : List Attribute} {payload stream rest : Bytes} {s : Session}
    {r : Reader} (h : Due attributes payload stream rest s r) :
    Body r.ending attributes payload stream rest := by
  cases h with
  | opening _ _ hbody => exact hbody
  | inside hbody => exact hbody

/-- A framed reply that a reader is ready for is due to a new session. -/
theorem due_of_framed {attributes : List Attribute} {payload reply rest : Bytes} {r : Reader}
    (hready : Ready reply r) (h : Framed r.ending attributes payload reply rest) :
    ∃ stream, Line r.ending beginLine reply stream ∧ Due attributes payload stream rest {} r := by
  obtain ⟨hline, hbody⟩ := h
  exact ⟨_, hline, .opening hready hline hbody⟩

namespace Session

variable {sink : Sink ω} {attributes : List Attribute} {payload stream rest : Bytes} {s : Session}
  {r : Reader}

/-- Wherever it stands, a session goes on with the records that are due. -/
theorem run_of_due (h : Due attributes payload stream rest s r) (sink : Sink ω) (store : ω) :
    run sink s r store =
      records sink s.attributes { rest := stream, ending := r.ending } store := by
  cases h with
  | opening hready hline _ => exact run_of_ready hready hline store
  | inside _ => rfl

/-- If the sink takes all that is due, the run completes. -/
theorem run_of_taken (h : Due attributes payload stream rest s r) {store store' : ω}
    (htaken : offer sink store attributes = (store', .ok ())) :
    run sink s r store =
      ⟨.ok (.completed (Prefix.value payload) (s.attributes + attributes.length)),
        ⟨.done, s.attributes + attributes.length⟩,
        { rest := rest, ending := r.ending, skipBlank := true }, store'⟩ := by
  rw [run_of_due h, records_of_accepted h.body rfl _ htaken]

/-- **A refusal breaks a run off right behind the refused attribute**, and what comes behind that
one is due then. -/
theorem run_of_refusal {taken left : List Attribute} {refused : Attribute}
    (h : Due (taken ++ refused :: left) payload stream rest s r) {store store₁ store' : ω}
    {err : Error} (htaken : offer sink store taken = (store₁, .ok ()))
    (hrefused : sink store₁ refused = (store', .error err)) :
    ∃ here,
      run sink s r store = ⟨.error err, ⟨.inSession, s.attributes + taken.length⟩,
        { rest := here, ending := r.ending }, store'⟩ ∧
      Attributes r.ending (taken ++ [refused]) stream here ∧ newline :: here <:+ stream ∧
      Due left payload here rest ⟨.inSession, s.attributes + taken.length⟩
        { rest := here, ending := r.ending } := by
  obtain ⟨before, hattributes, hbody⟩ := h.body.split
  cases hbody with
  | @attr _ _ _ _ here _ hblock hleft =>
    refine ⟨here, ?_, hattributes.concat hblock,
      hblock.newline_suffix.trans hattributes.suffix, .inside hleft⟩
    rw [run_of_due h, records_of_attributes hattributes rfl _ htaken,
      records_of_attr (r := { rest := before, ending := r.ending }) rfl hblock, hrefused]

/-! ### Many runs of one session -/

/-- A run of the session that has been run before, on the same reader. -/
def again (run : Run ω) (sink : Sink ω) : Run ω :=
  Session.run sink run.session run.reader run.store

/-- The last of many runs of a new session: one for each sink. -/
def runs (first : Sink ω) (sinks : List (Sink ω)) (r : Reader) (store : ω) : Run ω :=
  sinks.foldl again (run first {} r store)

end Session

/-- The sink, counting what it takes. -/
def Sink.tallied (sink : Sink ω) : Sink (ω × Nat) := fun (store, taken) a =>
  match sink store a with
  | (store, .ok ()) => ((store, taken + 1), .ok ())
  | (store, .error err) => ((store, taken), .error err)

theorem Sink.carried_tallied (sink : Sink ω) : Sink.Carried Prod.fst sink.tallied sink := by
  rintro ⟨store, taken⟩ a
  unfold tallied
  dsimp only
  rcases sink store a with ⟨store', err | ⟨⟩⟩ <;> rfl

/-- The session has counted what has been taken, and tells no other number. -/
structure Tallied (run : Run (ω × Nat)) : Prop where
  counted : run.session.attributes = run.store.2
  told : ∀ value count, run.answer = .ok (.completed value count) → count = run.store.2

namespace Session

/-! ### What has been taken -/

theorem records_tallied (sink : Sink ω) (count : Nat) (r : Reader) (store : ω) :
    Tallied (records sink.tallied count r (store, count)) := by
  induction hlength : r.rest.length using Nat.strong_induction_on generalizing count r store with
  | _ length ih =>
    rw [records_eq]
    rcases hrecord : r.record with fault | ⟨record, r'⟩
    · exact ⟨rfl, fun _ _ h => by cases h⟩
    · cases record with
      | opening => exact ⟨rfl, fun _ _ h => by cases h⟩
      | malformed error => exact ⟨rfl, fun _ _ h => by cases h⟩
      | result value =>
        refine ⟨rfl, fun _ _ h => ?_⟩
        cases h
        rfl
      | attr a =>
        dsimp only [Sink.tallied]
        rcases sink store a with ⟨store', err | ⟨⟩⟩
        · exact ⟨rfl, fun _ _ h => by cases h⟩
        · have hless := Reader.length_of_record_eq_attr hrecord
          exact ih r'.rest.length (hlength ▸ hless) (count + 1) r' store' rfl

/-- A run keeps the tally, whatever it meets. -/
theorem run_tallied (sink : Sink ω) {s : Session} (r : Reader) {store : ω × Nat}
    (h : s.attributes = store.2) : Tallied (run sink.tallied s r store) := by
  obtain ⟨store, taken⟩ := store
  obtain hrun | ⟨r', hrun⟩ | ⟨fault, r', hrun⟩ | ⟨line, r', hrun⟩ :=
    run_cases sink.tallied s r (store, taken)
  · rw [hrun]
    exact ⟨h, fun _ _ hanswer => by cases hanswer⟩
  · rw [hrun, h]
    exact records_tallied sink taken r' store
  · rw [hrun]
    exact ⟨h, fun _ _ hanswer => by cases hanswer⟩
  · rw [hrun]
    exact ⟨h, fun _ _ hanswer => by cases hanswer⟩

/-- So does every further run. -/
theorem Tallied.runs (sinks : List (Sink ω)) {run : Run (ω × Nat)} (h : Tallied run) :
    Tallied ((sinks.map Sink.tallied).foldl again run) := by
  induction sinks generalizing run with
  | nil => exact h
  | cons sink sinks ih => exact ih (run_tallied sink run.reader h.counted)

/-- Counting makes no difference to the runs. -/
theorem runs_untallied (sinks : List (Sink ω)) (run : Run (ω × Nat)) :
    ((sinks.map Sink.tallied).foldl again run).map Prod.fst =
      sinks.foldl again (run.map Prod.fst) := by
  induction sinks generalizing run with
  | nil => rfl
  | cons sink sinks ih =>
    have hagain : (again run sink.tallied).map Prod.fst = again (run.map Prod.fst) sink :=
      (run_carried sink.carried_tallied run.session run.reader run.store).symm
    rw [List.map_cons, List.foldl_cons, List.foldl_cons, ih, hagain]

/-! ### Sessions that have ended -/

theorem ended_of_records {count : Nat} {r : Reader} {store : ω} {outcome : Outcome}
    (h : (records sink count r store).answer = .ok outcome) :
    (records sink count r store).session.phase = .done ∨
      (records sink count r store).session.phase = .failed := by
  induction hlength : r.rest.length using Nat.strong_induction_on generalizing count r store with
  | _ length ih =>
    rw [records_eq] at h ⊢
    rcases hrecord : r.record with fault | ⟨record, r'⟩
    · rw [hrecord] at h
      cases h
    · rw [hrecord] at h
      cases record with
      | opening => exact .inr rfl
      | malformed error => exact .inr rfl
      | result value => exact .inl rfl
      | attr a =>
        dsimp only at h ⊢
        rcases hsink : sink store a with ⟨store', err | ⟨⟩⟩
        · rw [hsink] at h
          cases h
        · rw [hsink] at h
          have hless := Reader.length_of_record_eq_attr hrecord
          exact ih r'.rest.length (hlength ▸ hless) h rfl

/-- A run that tells an outcome ends its session. -/
theorem ended_of_run {s : Session} {r : Reader} {store : ω} {outcome : Outcome}
    (h : (run sink s r store).answer = .ok outcome) :
    (run sink s r store).session.phase = .done ∨
      (run sink s r store).session.phase = .failed := by
  obtain hrun | ⟨r', hrun⟩ | ⟨fault, r', hrun⟩ | ⟨line, r', hrun⟩ := run_cases sink s r store
  · rw [hrun] at h
    cases h
  · rw [hrun] at h ⊢
    exact ended_of_records h
  · rw [hrun] at h
    cases h
  · rw [hrun]
    exact .inr rfl

theorem again_of_ended {run : Run ω} (h : run.session.phase = .done ∨ run.session.phase = .failed)
    (sink : Sink ω) : again run sink = { run with answer := .error finishedError } := by
  unfold again Session.run
  obtain hdone | hfailed := h
  · rw [hdone]
  · rw [hfailed]

/-- Every run of a session that has ended is refused, and leaves the reader and the store alone. -/
theorem runs_of_ended {run : Run ω} (h : run.session.phase = .done ∨ run.session.phase = .failed)
    {sinks : List (Sink ω)} (hne : sinks ≠ []) :
    sinks.foldl again run = { run with answer := .error finishedError } := by
  induction sinks generalizing run with
  | nil => exact absurd rfl hne
  | cons sink sinks ih =>
    rw [List.foldl_cons, again_of_ended h]
    by_cases hlast : sinks = []
    · rw [hlast]
      rfl
    · refine ih ?_ hlast
      exact h

theorem runs_append (first : Sink ω) (sinks more : List (Sink ω)) (r : Reader) (store : ω) :
    runs first (sinks ++ more) r store = more.foldl again (runs first sinks r store) := by
  rw [runs, List.foldl_append, runs]

/-- The last of many runs is a run like any other. -/
theorem exists_last_run (sinks : List (Sink ω)) (sink : Sink ω) (s : Session) (r : Reader)
    (store : ω) : ∃ sink' s' r' store',
      sinks.foldl again (run sink s r store) = run sink' s' r' store' := by
  induction sinks generalizing sink s r store with
  | nil => exact ⟨sink, s, r, store, rfl⟩
  | cons next sinks ih => exact ih next _ _ _

theorem ended_of_runs {first : Sink ω} {sinks : List (Sink ω)} {r : Reader} {store : ω}
    {outcome : Outcome} (h : (runs first sinks r store).answer = .ok outcome) :
    (runs first sinks r store).session.phase = .done ∨
      (runs first sinks r store).session.phase = .failed := by
  obtain ⟨sink, s, r', store', hlast⟩ := exists_last_run sinks first {} r store
  rw [runs, hlast] at h ⊢
  exact ended_of_run h

/-- **A refused session goes on behind the refused attribute, and an ended one not at all.** What is
due is read: if the sink takes it, the run completes behind the result; if it refuses an attribute,
the run fails with the sink's error right behind the newline of that attribute, the ones before it
have been taken, the session is still open, and what comes behind is due. A framed reply is due to a
new session. However often a session is run, with whatever sinks and on whatever stream, it has
counted the attributes that were taken, and that number is told with the result. Once a run has told
an outcome, every further run fails as finished, and nothing is read or handed over. -/
theorem refused_resumed_and_ended_final :
    (∀ (attributes : List Attribute) (payload stream rest : Bytes) (s : Session) (r : Reader),
      Due attributes payload stream rest s r → ∀ (sink : Sink ω) (store : ω),
        (∀ store', offer sink store attributes = (store', .ok ()) →
          run sink s r store =
            ⟨.ok (.completed (Prefix.value payload) (s.attributes + attributes.length)),
              ⟨.done, s.attributes + attributes.length⟩,
              { rest := rest, ending := r.ending, skipBlank := true }, store'⟩) ∧
        (∀ taken refused left store₁ store' err, attributes = taken ++ refused :: left →
          offer sink store taken = (store₁, .ok ()) →
          sink store₁ refused = (store', .error err) →
          ∃ here,
            run sink s r store = ⟨.error err, ⟨.inSession, s.attributes + taken.length⟩,
              { rest := here, ending := r.ending }, store'⟩ ∧
            Attributes r.ending (taken ++ [refused]) stream here ∧ newline :: here <:+ stream ∧
            Due left payload here rest ⟨.inSession, s.attributes + taken.length⟩
              { rest := here, ending := r.ending })) ∧
    (∀ (attributes : List Attribute) (payload reply rest : Bytes) (r : Reader),
      Ready reply r → Framed r.ending attributes payload reply rest →
        ∃ stream, Line r.ending beginLine reply stream ∧
          Due attributes payload stream rest {} r) ∧
    (∀ (first : Sink ω) (sinks : List (Sink ω)) (r : Reader) (store : ω),
      let last := runs first.tallied (sinks.map Sink.tallied) r (store, 0)
      last.map Prod.fst = runs first sinks r store ∧
      last.session.attributes = last.store.2 ∧
      ∀ value count, last.answer = .ok (.completed value count) → count = last.store.2) ∧
    (∀ (first : Sink ω) (sinks more : List (Sink ω)) (r : Reader) (store : ω) (outcome : Outcome),
      (runs first sinks r store).answer = .ok outcome → more ≠ [] →
        runs first (sinks ++ more) r store =
          { runs first sinks r store with answer := .error finishedError }) := by
  refine ⟨fun attributes payload stream rest s r hdue sink store => ⟨?_, ?_⟩,
    fun attributes payload reply rest r hready hframed => due_of_framed hready hframed, ?_, ?_⟩
  · intro store' htaken
    exact run_of_taken hdue htaken
  · rintro taken refused left store₁ store' err rfl htaken hrefused
    exact run_of_refusal hdue htaken hrefused
  · intro first sinks r store
    have hfirst : Tallied (run first.tallied {} r (store, 0)) := run_tallied first r rfl
    have hlast := Tallied.runs sinks hfirst
    refine ⟨?_, hlast.counted, hlast.told⟩
    rw [runs, runs_untallied]
    exact congrArg (sinks.foldl again)
      (run_carried first.carried_tallied {} r (store, 0)).symm
  · intro first sinks more r store outcome htold hne
    rw [runs_append]
    exact runs_of_ended (ended_of_runs htold) hne

end Session

end ImageScoring.Reply
