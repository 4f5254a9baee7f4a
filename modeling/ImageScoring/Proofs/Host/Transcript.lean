import ImageScoring.Proofs.Filter.Start
import ImageScoring.Proofs.Host.Asking
import ImageScoring.Proofs.Worker.Ended

/-!
# What is said to the host

A filter that runs for the host says nothing unless it has started. Then it says that it is ready,
and takes part in a dialogue with the host, which ends as its answer tells (`run_transcript`). There
is one exception: the answer is an error if the worker has ended by itself and its end cannot be
told, even where the host has closed the dialogue in order (`run_fails_untold`).
-/

namespace ImageScoring.Host

open ImageScoring.Filter Channel

variable {σ : Type} {programs : Programs σ}

/-! ### One object -/

theorem keep_carried (rest written : Bytes) :
    Reply.Sink.Carried
      (fun told => between rest (written ++ told.flatMap fun t => setAttribute t.1 t.2))
      (keep notebook) (keep remoteObject) := by
  intro told a
  unfold keep
  split
  · rfl
  · next key _ =>
    have hwrite : ∀ written, remoteObject.write key (a.value ++ [0]) (between rest written) =
        (between rest (written ++ setAttribute key (a.value ++ [0])), .ok ()) :=
      fun _ => rfl
    rw [hwrite, notebook]
    simp [List.flatMap_append]

theorem keep_accepts : (keep notebook).Accepts := by
  intro told a
  unfold keep
  split <;> rfl

/-- What scoring an object of the host leaves. -/
inductive Exchange (programs : Programs σ) (f : Filter σ) (s : System) (stream written : Bytes)
    (e : Evaluation σ Channel) : Prop where
  | scored {answers : List (Option Bytes)} {rest : Bytes} {block : Block} {score : Int} :
      Answers answers stream rest → Scores programs f s answers block e.filter e.system →
      (e.answer = .ok score ∨
        ∃ error, e.answer = .error error ∧ endsService error = false ∧ score = sentinelScore) →
      e.object.send (result score) = (between rest (written ++ block.octets), .ok ()) →
      Exchange programs f s stream written e
  | broken {answers : List (Option Bytes)} {rest : Bytes} :
      Answers answers stream rest → readImage f.imageSource scripted answers = ([], .error .hung) →
      (∀ a rest', ¬Answer a rest rest') →
      (∃ cause, e.answer = .error (.host cause)) →
      (∃ rest', e.object = between rest' (written ++
        { asked := (questions f.imageSource).take (answers.length + 1) : Block }.octets)) →
      Exchange programs f s stream written e
  | waiting {answers : List (Option Bytes)} {rest image : Bytes} {worker worker' : Worker σ}
      {told : List (String × Bytes)} :
      Answers answers stream rest → readImage f.imageSource scripted answers = ([], .ok image) →
      f.worker.send programs.worker image (Utf8.ofText f.script) = (worker, .ok ()) →
      worker.read programs.worker f.replyForm (keep notebook) [] = (worker', told, .error .hung) →
      e.answer = .error .hung →
      e.object = between rest (written ++
        { asked := (questions f.imageSource).take answers.length, told := told : Block }.octets) →
      Exchange programs f s stream written e

theorem octets_of_score (asked : List String) (told : List (String × Bytes)) (score : Int)
    (rest written : Bytes) :
    (between rest (written ++ asked.flatMap getAttribute ++
        told.flatMap fun t => setAttribute t.1 t.2)).send (result score) =
      (between rest (written ++ { asked, told, score := some score : Block }.octets), .ok ()) := by
  rw [send_between, Block.octets]
  simp [List.append_assoc]

/-- **Scoring an object of the host** takes answers and says a block, whose score is that of the
reply, or minus one; the talk with the host fails only if it gives no answer. -/
theorem evaluate_exchange (programs : Programs σ) (f : Filter σ) (s : System)
    (stream written : Bytes) :
    Exchange programs f s stream written
      (f.evaluate programs remoteObject (between stream written) s) := by
  rw [evaluate]
  rcases readImage_asked f.imageSource stream written with
    @⟨answers, rest, x, hanswers, hsettled, -, -, hlist, hhost⟩ |
    @⟨answers, rest, hanswers, hno, -, hlist, rest', cause, hhost⟩
  swap
  · rw [hhost]
    refine .broken hanswers hlist hno ⟨cause, rfl⟩ ⟨rest', ?_⟩
    simp [Block.octets]
  have hscript := hlist []
  rw [List.append_nil] at hscript
  rw [hhost]
  cases x with
  | error e =>
    obtain ⟨name, problem, rfl⟩ := hsettled e rfl
    refine .scored hanswers (.unusable hscript) (.inr ⟨_, rfl, rfl, rfl⟩) ?_
    simpa using octets_of_score _ [] sentinelScore rest written
  | ok image =>
    dsimp only
    rw [evaluateImage]
    rcases hsend : f.worker.send programs.worker image (Utf8.ofText f.script) with ⟨worker, e | ⟨⟩⟩
    · obtain ⟨cause, rfl⟩ := Worker.send_fails (congrArg Prod.snd hsend)
      refine .scored hanswers (.unsent hscript hsend) (.inr ⟨_, rfl, rfl, rfl⟩) ?_
      simpa using octets_of_score _ [] sentinelScore rest written
    · have hcarried := Worker.read_carried (keep_carried rest
        (written ++ ((questions f.imageSource).take answers.length).flatMap getAttribute))
        programs.worker f.replyForm worker []
      dsimp only [evaluateReply] at hcarried ⊢
      rw [List.flatMap_nil, List.append_nil] at hcarried
      rw [hcarried]
      rcases hread : worker.read programs.worker f.replyForm (keep notebook) [] with
        ⟨worker', told, e | outcome⟩
      · dsimp only
        rcases Worker.read_fails keep_accepts (congrArg (·.2.2) hread) with rfl | ⟨cause, rfl⟩
        · refine .waiting hanswers hscript hsend hread rfl ?_
          simp [Block.octets]
        · refine .scored hanswers (.unread hscript hsend hread) (.inr ⟨_, rfl, rfl, rfl⟩) ?_
          exact octets_of_score _ _ _ _ _
      · dsimp only
        refine .scored hanswers (.replied hscript hsend hread) (.inl rfl) ?_
        have hsay := octets_of_score ((questions f.imageSource).take answers.length)
          (told ++ [(resultAttribute, resultOctets outcome.value)]) (score outcome.value) rest
          written
        rw [List.flatMap_append, ← List.append_assoc] at hsay
        rw [← hsay]
        simp only [List.flatMap_cons, List.flatMap_nil, List.append_nil]
        rfl

/-- **A worker that is lost costs an object its score**, whatever its answers are, and stays
lost. -/
theorem Scores.of_lost {f f' : Filter σ} {s s' : System} {answers : List (Option Bytes)}
    {block : Block} (h : Scores programs f s answers block f' s')
    (hlost : f.worker.Lost programs.worker) :
    block.score = some sentinelScore ∧ f'.worker.Lost programs.worker := by
  have hunsent : ∀ {image : Bytes} {worker : Worker σ},
      f.worker.send programs.worker image (Utf8.ofText f.script) ≠ (worker, .ok ()) := by
    intro image worker hsent
    obtain ⟨_, _, hfails, -⟩ := hlost.send image (Utf8.ofText f.script)
    cases hfails.symm.trans hsent
  cases h with
  | unusable _ => exact ⟨rfl, hlost⟩
  | @unsent image _ _ _ hsend =>
    obtain ⟨_, _, hfails, hstays⟩ := hlost.send image (Utf8.ofText f.script)
    obtain ⟨rfl, -⟩ := Prod.mk.inj (hfails.symm.trans hsend)
    exact ⟨rfl, hstays⟩
  | unread _ hsent _ => exact absurd hsent hunsent
  | replied _ hsent _ => exact absurd hsent hunsent

/-- It costs all objects that follow their scores. -/
theorem Exchanges.of_lost {f f' : Filter σ} {s s' : System} {stream rest : Bytes}
    {blocks : List Block} (h : Exchanges programs f s stream blocks f' s' rest)
    (hlost : f.worker.Lost programs.worker) : ∀ b ∈ blocks, b.score = some sentinelScore := by
  induction h with
  | nil => simp
  | cons _ _ hscores _ ih =>
    obtain ⟨hscore, hstays⟩ := hscores.of_lost hlost
    exact List.forall_mem_cons.mpr ⟨hscore, ih hstays⟩

/-! ### The whole talk -/

/-- What serving the host answers if the dialogue ends this way. -/
inductive Ends : Close → Except Error Unit → Prop where
  | closed : Ends .closed (.ok ())
  | shutdown : Ends .shutdown (.ok ())
  | unknown {cause : String} : Ends .unknown (.error (.host cause))
  | broken {cause : String} : Ends .broken (.error (.host cause))
  | waiting : Ends .waiting (.error .hung)

theorem Ends.eq_ok_iff {close : Close} {answer : Except Error Unit} (h : Ends close answer) :
    answer = .ok () ↔ close = .closed ∨ close = .shutdown := by
  cases h <;> simp

/-- **Serving the host is a dialogue.** The induction is on the bound, which exceeds what is left of
the input: every command takes something of it. -/
theorem serveWithin_dialogue (programs : Programs σ) (fuel : Nat) (f : Filter σ) (s : System)
    (stream written : Bytes) (hfuel : stream.length < fuel) :
    let served := serveWithin programs fuel f s (between stream written)
    ∃ scored f' s' last unscored close rest, Exchanges programs f s stream scored f' s' last ∧
      Closing programs f' last unscored close ∧
      served.channel = between rest (written ++ (scored ++ unscored).flatMap Block.octets) ∧
      Ends close served.answer ∧ (served.answer = .ok () → served.filter = f') := by
  dsimp only
  induction fuel generalizing f s stream written with
  | zero => exact absurd hfuel (Nat.not_lt_zero _)
  | succ fuel ih =>
    rw [serveWithin]
    rcases command_cases stream written with ⟨rfl, hcommand⟩ | ⟨text, rest, hsays, hcommand⟩
    · rw [hcommand]
      exact ⟨[], f, s, [], [], .closed, [], .nil, .closed, by simp, .closed, fun _ => rfl⟩
    rw [hcommand]
    dsimp only
    cases hof : Command.ofText text with
    | shutdown =>
      rw [hof] at hsays
      exact ⟨[], f, s, stream, [], .shutdown, rest, .nil, .shutdown hsays, by simp, .shutdown,
        fun _ => rfl⟩
    | other other =>
      rw [hof] at hsays
      exact ⟨[], f, s, stream, [], .unknown, rest, .nil, .unknown hsays, by simp, .unknown,
        by rintro ⟨⟩⟩
    | evaluate =>
      rw [hof] at hsays
      dsimp only
      have hexchange := evaluate_exchange programs f s rest written
      revert hexchange
      generalize f.evaluate programs remoteObject (between rest written) s = e
      intro hexchange
      cases hexchange with
      | @scored answers rest' block score hanswers hscores hanswer hsend =>
        have hless : rest'.length < fuel := by
          have hanswered := hanswers.suffix.length_le
          have hsaid := hsays.length_lt
          omega
        obtain ⟨scored, f', s', last, unscored, close, left, hexchanges, hclosing, hserved⟩ :=
          ih e.filter e.system rest' (written ++ block.octets) hless
        refine ⟨block :: scored, f', s', last, unscored, close, left,
          .cons hsays hanswers hscores hexchanges, hclosing, ?_⟩
        rw [List.cons_append, List.flatMap_cons, ← List.append_assoc]
        rcases hanswer with hanswer | ⟨error, hanswer, hgoes, rfl⟩
        · rw [hanswer]
          dsimp only
          rw [hsend]
          exact hserved
        · rw [hanswer]
          dsimp only
          rw [hgoes, if_neg (by simp), hsend]
          exact hserved
      | @broken answers rest' hanswers hscript hno hanswer hobject =>
        obtain ⟨cause, hanswer⟩ := hanswer
        obtain ⟨left, hobject⟩ := hobject
        have hstops : endsService (.host cause) = true := rfl
        refine ⟨[], f, s, stream, _, .broken, left, .nil, .broken hsays hanswers hscript hno, ?_⟩
        rw [hanswer]
        dsimp only
        rw [if_pos hstops]
        refine ⟨?_, .broken, by rintro ⟨⟩⟩
        rw [hobject]
        simp
      | @waiting answers rest' image worker worker' told hanswers hscript hsent hread hanswer
          hobject =>
        have hstops : endsService .hung = true := rfl
        refine ⟨[], f, s, stream, _, .waiting, rest', .nil,
          .waiting hsays hanswers hscript hsent hread, ?_⟩
        rw [hanswer]
        dsimp only
        rw [if_pos hstops]
        refine ⟨?_, .waiting, by rintro ⟨⟩⟩
        rw [hobject]
        simp

/-- A filter that starts says that it is ready, is served, and is finished. -/
theorem run_of_start {config : Config} {s s' : System} {input rest : Bytes} {startup : Startup}
    {f : Filter σ}
    (hstartup : (between input []).startup = (between rest [], .ok (some startup)))
    (hstart : start programs config startup.filterName startup.args startup.blob s = (.ok f, s')) :
    let served := serveWithin programs (rest.length + 1) f s' (between rest ready)
    (run programs config s (between input [])).channel = served.channel ∧
      (run programs config s (between input [])).answer = served.answer.bind fun () =>
        (served.filter.worker.teardown programs.worker served.system).2.2 := by
  have hwelcome : welcome programs f s' (between rest []) =
      serveWithin programs (rest.length + 1) f s' (between rest ready) := rfl
  dsimp only
  rw [run, hstartup]
  dsimp only
  rw [hstart]
  dsimp only
  rw [hwelcome]
  exact ⟨rfl, rfl⟩

/-- Finishing the filter changes the answer only if the end of its worker cannot be told. -/
theorem Ends.finish {close : Close} {answer finished : Except Error Unit} {w w' : Worker σ}
    {s : System} (h : Ends close answer) (hw : answer = .ok () → w = w')
    (hfinished : finished = answer.bind fun () => (w.teardown programs.worker s).2.2) :
    (Ends close finished ∨ w'.Untold programs.worker ∧ (close = .closed ∨ close = .shutdown) ∧
      finished = .error Worker.waitError) ∧
    (finished = .ok () ↔ (close = .closed ∨ close = .shutdown) ∧ ¬w'.Untold programs.worker) := by
  subst hfinished
  have hdone := h.eq_ok_iff
  cases answer with
  | error e =>
    refine ⟨.inl h, by rintro ⟨⟩, ?_⟩
    rintro ⟨hover, -⟩
    cases hdone.mpr hover
  | ok _ =>
    obtain rfl := hw rfl
    have hover := hdone.mp rfl
    dsimp only [Except.bind]
    obtain ⟨huntold, hend⟩ | ⟨htold, hend⟩ := Worker.teardown_answer programs.worker w s
    · rw [hend]
      exact ⟨.inr ⟨huntold, hover, rfl⟩, by rintro ⟨⟩, fun htold => absurd huntold htold.2⟩
    · rw [hend]
      exact ⟨.inl h, fun _ => ⟨hover, htold⟩, fun _ => rfl⟩

/-- **What a run says is well-formed.** It says nothing if the start-up message is missing or
malformed, or if the filter cannot be started. Else it says that it is ready, and then one block for
every command to evaluate; only an object that is asked about when the talk with the host fails, or
when the worker is waited for for ever, gets no score, and it is the last one. A worker that is lost
costs every object behind that its score, and the dialogue goes on. The run succeeds exactly if the
host has closed its side or ordered the shutdown, and the worker, which is torn down then, has not
ended before in a way that cannot be told. -/
theorem run_transcript (programs : Programs σ) (config : Config) (s : System) (input : Bytes) :
    ((∀ c startup, (between input []).startup ≠ (c, .ok (some startup))) ∨
        ∃ c startup e s', (between input []).startup = (c, .ok (some startup)) ∧
          start programs config startup.filterName startup.args startup.blob s = (.error e, s')) ∧
      (run programs config s (between input [])).channel.output.written = [] ∨
    ∃ startup rest f s' scored f₁ s₁ last unscored close,
      (between input []).startup = (between rest [], .ok (some startup)) ∧
      start programs config startup.filterName startup.args startup.blob s = (.ok f, s') ∧
      Exchanges programs f s' rest scored f₁ s₁ last ∧ Closing programs f₁ last unscored close ∧
      (run programs config s (between input [])).channel.output.written =
        ready ++ (scored ++ unscored).flatMap Block.octets ∧
      (∀ b ∈ scored ++ unscored, b.asked <+: questions config.imageSource) ∧
      (∀ b ∈ scored, b.score.isSome = true) ∧
      (unscored.length ≤ 1 ∧ (∀ b ∈ unscored, b.score = none) ∧
        (unscored ≠ [] → close = .broken ∨ close = .waiting)) ∧
      (∀ before after, scored = before ++ after → ∃ f₂ s₂ stream₂,
        Exchanges programs f s' rest before f₂ s₂ stream₂ ∧
        Exchanges programs f₂ s₂ stream₂ after f₁ s₁ last ∧
        (f₂.worker.Lost programs.worker → ∀ b ∈ after, b.score = some sentinelScore)) ∧
      (Ends close (run programs config s (between input [])).answer ∨
        f₁.worker.Untold programs.worker ∧ (close = .closed ∨ close = .shutdown) ∧
          (run programs config s (between input [])).answer = .error Worker.waitError) ∧
      ((run programs config s (between input [])).answer = .ok () ↔
        (close = .closed ∨ close = .shutdown) ∧ ¬f₁.worker.Untold programs.worker) := by
  obtain ⟨rest, answer, hstartup⟩ := (startup_quiet input []).eq
  rcases answer with fault | _ | startup
  · refine .inl ⟨.inl ?_, ?_⟩
    · rw [hstartup]
      rintro c startup ⟨⟩
    · rw [run, hstartup]
      rfl
  · refine .inl ⟨.inl ?_, ?_⟩
    · rw [hstartup]
      rintro c startup ⟨⟩
    · rw [run, hstartup]
      rfl
  · rcases hstart : start programs config startup.filterName startup.args startup.blob s with
      ⟨e | f, s'⟩
    · refine .inl ⟨.inr ⟨_, startup, e, s', hstartup, hstart⟩, ?_⟩
      rw [run, hstartup]
      dsimp only
      rw [hstart]
      rfl
    · obtain ⟨scored, f₁, s₁, last, unscored, close, left, hexchanges, hclosing, hchannel, hends,
        hfilter⟩ := serveWithin_dialogue programs (rest.length + 1) f s' rest ready
          (Nat.lt_succ_self _)
      obtain ⟨hsaid, hanswer⟩ := run_of_start hstartup hstart
      obtain ⟨-, hsource, -⟩ := settings_of_start hstart
      refine .inr ⟨startup, rest, f, s', scored, f₁, s₁, last, unscored, close, hstartup, hstart,
        hexchanges, hclosing, ?_, ?_, hexchanges.scored, hclosing.unscored, ?_,
        hends.finish (fun hok => congrArg Filter.worker (hfilter hok)) hanswer⟩
      · rw [hsaid, hchannel]
        rfl
      · rw [← hsource]
        refine List.forall_mem_append.mpr ⟨hexchanges.asked_in_order, ?_⟩
        rw [← hexchanges.imageSource_eq]
        exact hclosing.asked_in_order
      · rintro before after rfl
        obtain ⟨f₂, s₂, stream₂, hbefore, hafter⟩ := hexchanges.split
        exact ⟨f₂, s₂, stream₂, hbefore, hafter, hafter.of_lost⟩

/-! ### An end that cannot be told -/

/-- A worker that gives the score seven for anything, and is killed then by a signal without a
name. -/
def untoldPrograms : Programs Unit where
  worker := fun _ unread =>
    if unread = [] then ([], ())
    else ([.consume unread.length, .emit (ascii "7"), .stop (.signaled 40 false)], ())
  startWorker _ _ := .ok ()
  startServer _ _ _ := .ok [[.ready]]

/-- The host has one object scored and orders the shutdown. -/
def orderlyInput : Bytes :=
  Startup.encode ⟨"imagej", ["c2NvcmUA"], []⟩ ++ line (ascii "evaluate") ++
    value (some (ascii "IMG")) ++ line (ascii "shutdown")

/-- **The run fails although the host has ordered the shutdown**, and although the worker, which is
gone, is torn down. -/
theorem run_fails_untold :
    let done := run untoldPrograms { sources := Workspace.smallSources, replyForm := .bare }
      Filter.smallSystem (between orderlyInput [])
    done.channel.reader.rest = [] ∧
      done.channel.output.written = ready ++ getAttribute dataAttribute ++
        setAttribute resultAttribute (resultOctets (Prefix.value (ascii "7"))) ++ result 7 ∧
      (done.filter.map fun f => (f.worker.tornDown, f.worker.process.present)) =
        some (true, false) ∧
      done.answer = .error Worker.waitError := by
  decide +kernel

/-- An object without its attribute is asked about once, and costs nothing but its own score. -/
example :
    (run Filter.smallPrograms { sources := Workspace.smallSources } Filter.smallSystem (between
        (Startup.encode ⟨"imagej", ["c2NvcmUA"], []⟩ ++ line (ascii "evaluate") ++ value none ++
          line (ascii "shutdown")) [])).channel.output.written =
      ready ++ getAttribute dataAttribute ++ result sentinelScore := by
  decide +kernel

end ImageScoring.Host
