import ImageScoring.Filter
import ImageScoring.Proofs.Reply.Encoding
import ImageScoring.Proofs.Worker.Answering

/-!
# Failed evaluations

A filter scores one object after another with a worker that answers every request with a well-formed
reply. What an evaluation does is told by what stands unread before its own reply (`Phase`). An
evaluation that fails may leave something there: if the object's store refuses an attribute, the
rest of the reply stays unread, the next evaluation takes it for a malformed reply, and those that
follow are told the replies of earlier requests.
-/

namespace ImageScoring

open Reply

variable {σ ω : Type}

/-- The score that a well-formed reply tells. -/
def Reply.WellFormed.score (reply : WellFormed) : Int :=
  ImageScoring.score (Prefix.value reply.payload)

namespace Filter

variable {programs : Programs σ} {A : Answering programs.worker} {f : Filter σ} {s : System}
  {store : ObjectStore ω} {object object' : ω} {image : Bytes}

/-- The evaluation of an object sends a request with that image. -/
structure Sends (f : Filter σ) (store : ObjectStore ω) (object object' : ω) (image : Bytes) :
    Prop where
  read : readImage f.imageSource store object = (object', .ok image)
  fits : Request.Fits image (Utf8.ofText f.script)

/-- The reply to that request. -/
def own (A : Answering programs.worker) (f : Filter σ) (image : Bytes) : WellFormed :=
  A.reply f.worker.process image (Utf8.ofText f.script)

/-- The filter reads framed replies and keeps its worker after a malformed one; that stands unread
before the reply to its next request. -/
structure Holds (A : Answering programs.worker) (phase : Phase) (f : Filter σ) : Prop where
  framed : f.replyForm = .framed
  isolate : f.framingPolicy = .isolate
  stands : Stands A phase f.worker

/-! ### One evaluation -/

theorem afterReply_of_isolate (h : f.framingPolicy = .isolate) (outcome : Outcome) :
    afterReply programs outcome f s = (f, s) := by
  unfold afterReply
  rw [h]
  cases outcome <;> rfl

/-- An evaluation whose request is taken goes on with the reply. -/
theorem evaluate_of_sent {w : Worker σ}
    (hread : readImage f.imageSource store object = (object', .ok image))
    (hsend : f.worker.send programs.worker image (Utf8.ofText f.script) = (w, .ok ())) :
    f.evaluate programs store object s =
      evaluateReply programs store object' { f with worker := w } s := by
  unfold evaluate
  rw [hread]
  dsimp only
  rw [evaluateImage, hsend]

/-- An evaluation that gets a reply: it writes the result, and gives the score if the store accepts
that. -/
theorem evaluate_of_read {w w' : Worker σ} {object'' : ω} {outcome : Outcome}
    (hread : readImage f.imageSource store object = (object', .ok image))
    (hsend : f.worker.send programs.worker image (Utf8.ofText f.script) = (w, .ok ()))
    (hreply : w.read programs.worker f.replyForm (keep store) object' =
      (w', object'', .ok outcome)) :
    f.evaluate programs store object s =
      let after := afterReply programs outcome { f with worker := w' } s
      let written := store.write resultAttribute (resultOctets outcome.value) object''
      ⟨written.2.map fun _ => score outcome.value, after.1, after.2, written.1⟩ := by
  rw [evaluate_of_sent hread hsend]
  dsimp only [evaluateReply]
  rw [hreply]
  dsimp only
  rcases store.write resultAttribute (resultOctets outcome.value) object'' with ⟨_, _ | _⟩
  · rfl
  · rfl

/-- The worker after it has answered the request. -/
def answered (programs : Programs σ) (f : Filter σ) (image : Bytes) : Worker σ :=
  f.worker.answered programs.worker image (Utf8.ofText f.script)

/-- An evaluation whose session ends with an outcome: it writes the result, and gives the score if
the store accepts that. -/
theorem evaluate_of_ok {phase : Phase} (h : Holds A phase f)
    (hs : Sends f store object object' image) {run : Run ω}
    (hrun : Session.run (keep store) {} (answered programs f image).reader object' = run)
    {outcome : Outcome} (ha : run.answer = .ok outcome) :
    (f.evaluate programs store object s).answer =
        ((store.write resultAttribute (resultOctets outcome.value) run.store).2.map fun _ =>
          score outcome.value) ∧
      (f.evaluate programs store object s).filter =
        { f with worker := (answered programs f image).after run.reader } := by
  have ht := h.stands.tornDown
  have hsend := Worker.send_of_fits ht h.stands.waiting hs.fits
  have hreply := Worker.read_of_ok ht hrun ha
  rw [← h.framed] at hreply
  rw [evaluate_of_read hs.read hsend hreply, afterReply_of_isolate (by exact h.isolate)]
  exact ⟨rfl, rfl⟩

/-- An evaluation whose session is broken off fails. -/
theorem evaluate_of_error {phase : Phase} (h : Holds A phase f)
    (hs : Sends f store object object' image) {run : Run ω}
    (hrun : Session.run (keep store) {} (answered programs f image).reader object' = run)
    {err : Error} (ha : run.answer = .error err) :
    ∃ err' w', (f.evaluate programs store object s).answer = .error err' ∧
      (f.evaluate programs store object s).filter = { f with worker := w' } ∧
      Kept A ((answered programs f image).after run.reader) w' := by
  have ht := h.stands.tornDown
  have hsend := Worker.send_of_fits ht h.stands.waiting hs.fits
  obtain ⟨w', err', hread, hk⟩ := Worker.read_of_error ht h.stands.waiting hs.fits hrun ha
  rw [← h.framed] at hread
  refine ⟨err', w', ?_, ?_, hk⟩
  all_goals
    rw [evaluate_of_sent hs.read hsend]
    dsimp only [evaluateReply]
    rw [hread]

/-- An evaluation that sends nothing fails, and leaves the worker's output as it was. -/
theorem evaluate_unsent {phase : Phase} (h : Holds A phase f)
    (hs : ∀ object' image, ¬Sends f store object object' image) :
    ∃ err w', (f.evaluate programs store object s).answer = .error err ∧
      (f.evaluate programs store object s).filter = { f with worker := w' } ∧
      Kept A f.worker w' := by
  unfold evaluate
  rcases hread : readImage f.imageSource store object with ⟨object', err | image⟩
  · exact ⟨err, f.worker, rfl, rfl, rfl, h.stands.waiting, rfl⟩
  · have hfits : ¬Request.Fits image (Utf8.ofText f.script) := fun hf =>
      hs object' image ⟨hread, hf⟩
    obtain ⟨w', err, hsend, hk⟩ :=
      Worker.send_of_not_fits h.stands.tornDown h.stands.waiting hfits
    refine ⟨err, w', ?_, ?_, hk⟩
    all_goals
      dsimp only
      unfold evaluateImage
      rw [hsend]

/-! ### What one evaluation does to what stands unread -/

/-- The score that is told while that stands unread before a filter's own reply. -/
def told (own : WellFormed) : Phase → Int
  | .whole [] => own.score
  | .whole (first :: _) => first.score
  | .inside _ _ => sentinelScore

/-- What an evaluation does to what stands unread, its own reply coming last. -/
inductive Step (A : Answering programs.worker) (f : Filter σ) (store : ObjectStore ω) (object : ω) :
    Phase → Phase → Prop where
  /-- No request is sent. -/
  | unsent {phase : Phase} : (∀ object' image, ¬Sends f store object object' image) →
      Step A f store object phase phase
  /-- The first reply is read to its end. -/
  | read {object' object'' : ω} {image : Bytes} {queue rest : List WellFormed}
      {first : WellFormed} : Sends f store object object' image →
      queue ++ [own A f image] = first :: rest →
      offer (keep store) object' first.attributes = (object'', .ok ()) →
      Step A f store object (.whole queue) (.whole rest)
  /-- The store refuses an attribute of the first reply. -/
  | refused {object' object'' : ω} {image : Bytes} {queue rest : List WellFormed}
      {first : WellFormed} {err : Error} {left : List Attribute} :
      Sends f store object object' image → queue ++ [own A f image] = first :: rest →
      offer (keep store) object' first.attributes = (object'', .error (err, left)) →
      Step A f store object (.whole queue) (.inside first rest)
  /-- The rest of a broken reply is met. -/
  | met {object' : ω} {image : Bytes} {queue : List WellFormed} {broken : WellFormed} :
      Sends f store object object' image → broken.Plain →
      Step A f store object (.inside broken queue) (.whole (queue ++ [own A f image]))

theorem Holds.kept {phase : Phase} {w : Worker σ} (h : Holds A phase f) {phase' : Phase}
    (hw : Stands A phase' w) : Holds A phase' { f with worker := w } :=
  ⟨h.framed, h.isolate, hw⟩

/-- **What stands unread follows the steps.** -/
theorem holds_of_step {phase phase' : Phase} (h : Holds A phase f)
    (hstep : Step A f store object phase phase') :
    Holds A phase' (f.evaluate programs store object s).filter := by
  cases hstep with
  | unsent hs =>
    obtain ⟨err, w', -, hf, hk⟩ := evaluate_unsent (s := s) h hs
    rw [hf]
    exact h.kept (h.stands.kept hk)
  | read hs hq ho =>
    obtain ⟨ha, hstands⟩ := h.stands.run_of_accepted hs.fits hq ho rfl
    rw [(evaluate_of_ok h hs rfl ha).2]
    exact h.kept hstands
  | refused hs hq ho =>
    obtain ⟨ha, hstands⟩ := h.stands.run_of_refused hs.fits hq ho rfl
    obtain ⟨err', w', -, hf, hk⟩ := evaluate_of_error (s := s) h hs rfl ha
    rw [hf]
    exact h.kept (hstands.kept hk)
  | met hs hplain =>
    next object' image queue broken =>
    have hrun : Session.run (keep store) {} (answered programs f image).reader object' = _ := rfl
    obtain ⟨⟨error, ha⟩, hstands⟩ := h.stands.run_inside hs.fits hrun
    rw [(evaluate_of_ok h hs hrun ha).2]
    exact h.kept (hstands hplain)

/-- The score that is given is that of the outcome. -/
theorem eq_score_of_ok {phase : Phase} (h : Holds A phase f)
    (hs : Sends f store object object' image) {run : Run ω}
    (hrun : Session.run (keep store) {} (answered programs f image).reader object' = run)
    {outcome : Outcome} (ha : run.answer = .ok outcome) {n : Int}
    (hn : (f.evaluate programs store object s).answer = .ok n) : n = score outcome.value := by
  rw [(evaluate_of_ok h hs hrun ha).1] at hn
  cases hw : (store.write resultAttribute (resultOctets outcome.value) run.store).2 with
  | error err => simp [hw, Except.map] at hn
  | ok _ =>
    rw [hw] at hn
    exact (Except.ok.inj hn).symm

theorem score_sentinel : score sentinel = sentinelScore := by
  decide +kernel

theorem exists_first (own : WellFormed) (queue : List WellFormed) :
    ∃ first rest, queue ++ [own] = first :: rest ∧ told own (.whole queue) = first.score := by
  cases queue with
  | nil => exact ⟨own, [], rfl, rfl⟩
  | cons first queue => exact ⟨first, queue ++ [own], rfl, rfl⟩

/-- An evaluation that gives a score has sent its request, and gives what is told. -/
theorem score_eq_told {phase : Phase} (h : Holds A phase f) {n : Int}
    (hn : (f.evaluate programs store object s).answer = .ok n) :
    ∃ object' image, Sends f store object object' image ∧ n = told (own A f image) phase := by
  by_cases hs : ∃ object' image, Sends f store object object' image
  · obtain ⟨object', image, hs⟩ := hs
    refine ⟨object', image, hs, ?_⟩
    have hrun : Session.run (keep store) {} (answered programs f image).reader object' = _ := rfl
    cases phase with
    | whole queue =>
      obtain ⟨first, rest, hq, htold⟩ := exists_first (own A f image) queue
      rw [htold]
      rcases ho : offer (keep store) object' first.attributes with ⟨object'', ⟨err, left⟩ | ⟨⟩⟩
      · obtain ⟨ha, -⟩ := h.stands.run_of_refused hs.fits hq ho hrun
        obtain ⟨err', w', ha', -, -⟩ := evaluate_of_error (s := s) h hs hrun ha
        rw [ha'] at hn
        contradiction
      · obtain ⟨ha, -⟩ := h.stands.run_of_accepted hs.fits hq ho hrun
        exact eq_score_of_ok h hs hrun ha hn
    | inside broken queue =>
      obtain ⟨⟨error, ha⟩, -⟩ := h.stands.run_inside hs.fits hrun
      rw [eq_score_of_ok h hs hrun ha hn]
      exact score_sentinel
  · have hs' : ∀ object' image, ¬Sends f store object object' image := fun object' image h =>
      hs ⟨object', image, h⟩
    obtain ⟨err, w', ha, -, -⟩ := evaluate_unsent (s := s) h hs'
    rw [ha] at hn
    contradiction

/-! ### Runs of evaluations -/

/-- The filter and the system after objects were scored one after the other, each in its store. -/
def evaluateAll (programs : Programs σ) :
    List (ObjectStore ω × ω) → Filter σ → System → Filter σ × System
  | [], f, s => (f, s)
  | (store, object) :: calls, f, s =>
    let done := f.evaluate programs store object s
    evaluateAll programs calls done.filter done.system

/-- The steps of such a run. -/
inductive Course (A : Answering programs.worker) :
    Phase → Filter σ → System → List (ObjectStore ω × ω) → Phase → Prop where
  | nil {phase : Phase} {f : Filter σ} {s : System} : Course A phase f s [] phase
  | cons {phase phase' phase'' : Phase} {f : Filter σ} {s : System} {store : ObjectStore ω}
      {object : ω} {calls : List (ObjectStore ω × ω)} : Step A f store object phase phase' →
      Course A phase' (f.evaluate programs store object s).filter
        (f.evaluate programs store object s).system calls phase'' →
      Course A phase f s ((store, object) :: calls) phase''

/-- The store refuses an attribute of the reply to the evaluation's own request. -/
def Refused (A : Answering programs.worker) (f : Filter σ) (store : ObjectStore ω) (object : ω) :
    Prop :=
  ∃ object' image object'' err left, Sends f store object object' image ∧
    offer (keep store) object' (own A f image).attributes = (object'', .error (err, left))

/-- No evaluation of the run is broken off by an attribute that is refused. -/
def Unbroken (A : Answering programs.worker) :
    List (ObjectStore ω × ω) → Filter σ → System → Prop
  | [], _, _ => True
  | (store, object) :: calls, f, s =>
    ¬Refused A f store object ∧
      Unbroken A calls (f.evaluate programs store object s).filter
        (f.evaluate programs store object s).system

theorem holds_of_course {phase phase' : Phase} {calls : List (ObjectStore ω × ω)}
    (hc : Course A phase f s calls phase') (h : Holds A phase f) :
    Holds A phase' (evaluateAll programs calls f s).1 := by
  induction hc with
  | nil => exact h
  | cons hstep _ ih => exact ih (holds_of_step h hstep)

/-- As long as nothing is refused, nothing stands unread. -/
theorem step_of_not_refused (h : ¬Refused A f store object) :
    Step A f store object (.whole []) (.whole []) := by
  by_cases hs : ∃ object' image, Sends f store object object' image
  · obtain ⟨object', image, hs⟩ := hs
    rcases ho : offer (keep store) object' (own A f image).attributes with
      ⟨object'', ⟨err, left⟩ | ⟨⟩⟩
    · exact absurd ⟨object', image, object'', err, left, hs, ho⟩ h
    · exact .read hs rfl ho
  · exact .unsent fun object' image hsends => hs ⟨object', image, hsends⟩

theorem course_of_unbroken {calls : List (ObjectStore ω × ω)} (h : Unbroken A calls f s) :
    Course A (.whole []) f s calls (.whole []) := by
  induction calls generalizing f s with
  | nil => exact .nil
  | cons call calls ih => exact .cons (step_of_not_refused h.1) (ih h.2)

theorem Sends.unique {object₁ object₂ : ω} {image₁ image₂ : Bytes}
    (h₁ : Sends f store object object₁ image₁) (h₂ : Sends f store object object₂ image₂) :
    object₁ = object₂ ∧ image₁ = image₂ := by
  have h := h₁.read.symm.trans h₂.read
  simp only [Prod.mk.injEq, Except.ok.injEq] at h
  exact h

/-- Whether the first reply is refused, if it is the evaluation's own. -/
theorem refused_iff {object'' : ω} {answer : Except (Error × List Attribute) Unit}
    (hs : Sends f store object object' image)
    (ho : offer (keep store) object' (own A f image).attributes = (object'', answer)) :
    Refused A f store object ↔ answer ≠ .ok () := by
  constructor
  · rintro ⟨object₁, image₁, object₂, err, left, hs₁, ho₁⟩ rfl
    obtain ⟨rfl, rfl⟩ := hs.unique hs₁
    rw [ho] at ho₁
    simp at ho₁
  · intro hne
    rcases answer with ⟨err, left⟩ | ⟨⟩
    · exact ⟨object', image, object'', err, left, hs, ho⟩
    · exact absurd rfl hne

/-- Nothing stands unread after an evaluation exactly if nothing did before it, and it was not
broken off: what is left unread once is never made up for. -/
theorem whole_nil_of_step_iff {phase phase' : Phase} (hstep : Step A f store object phase phase') :
    phase' = .whole [] ↔ phase = .whole [] ∧ ¬Refused A f store object := by
  cases hstep with
  | unsent hs =>
    refine ⟨fun h => ⟨h, ?_⟩, fun h => h.1⟩
    rintro ⟨object', image, -, -, -, hsends, -⟩
    exact hs object' image hsends
  | @read _ _ image queue rest first hs hq ho =>
    cases queue with
    | nil =>
      obtain ⟨rfl, rfl⟩ := List.cons.inj hq
      rw [refused_iff hs ho]
      simp
    | cons b queue =>
      obtain ⟨-, rfl⟩ := List.cons.inj hq
      simp
  | @refused _ _ image queue rest first err left hs hq ho =>
    cases queue with
    | nil =>
      obtain ⟨rfl, rfl⟩ := List.cons.inj hq
      rw [refused_iff hs ho]
      simp
    | cons b queue => simp
  | met _ _ => simp

/-- Nothing stands unread after a run exactly if no evaluation of it was broken off. -/
theorem whole_nil_of_course_iff {phase phase' : Phase} {calls : List (ObjectStore ω × ω)}
    (hc : Course A phase f s calls phase') :
    phase' = .whole [] ↔ phase = .whole [] ∧ Unbroken A calls f s := by
  induction hc with
  | nil => simp [Unbroken]
  | cons hstep _ ih => rw [ih, whole_nil_of_step_iff hstep, Unbroken, and_assoc]

/-! ### Starting -/

/-- The workers that can be started begin by waiting. -/
def Begins (A : Answering programs.worker) : Prop :=
  ∀ disk launch state, programs.startWorker disk launch = .ok state → A.waiting { state := state }

theorem stands_of_spawn (hw : Begins A) {command : Command} {workspace : Workspace} {lease : Lease}
    {w : Worker σ} {s' : System}
    (h : Worker.spawn programs command workspace lease s = (.ok w, s')) :
    Stands A (.whole []) w := by
  unfold Worker.spawn at h
  dsimp only at h
  split at h
  · simp at h
  · next state hstate =>
    have hstart : programs.startWorker s.disk ⟨command, workspace.workerDir, lease.address⟩ =
        .ok state := by
      unfold Command.started at hstate
      split at hstate
      · simp at hstate
      · exact hstate
    simp only [Worker.adopt, if_true, Prod.mk.injEq, Except.ok.injEq] at h
    obtain ⟨rfl, -⟩ := h
    exact .whole rfl (hw _ _ _ hstart) .fresh

/-- Nothing stands unread when a filter has been started. -/
theorem holds_of_start (hw : Begins A) {config : Config} {filterName : String} {args : List String}
    {bundle : Bytes} {s' : System} (hform : config.replyForm = .framed)
    (hpolicy : config.framingPolicy = .isolate)
    (h : start programs config filterName args bundle s = (.ok f, s')) : Holds A (.whole []) f := by
  unfold start at h
  split at h
  · simp at h
  · split at h
    · simp at h
    · split at h
      · simp at h
      · next worker s₁ hworker =>
        simp only [Prod.mk.injEq, Except.ok.injEq] at h
        obtain ⟨rfl, -⟩ := h
        refine ⟨hform, hpolicy, ?_⟩
        unfold startWorker at hworker
        split at hworker
        · simp at hworker
        · exact stands_of_spawn hw hworker

/-! ### Every run is a course if no reply holds another `BEGIN` -/

/-- No reply that stands unread has a line that reads `BEGIN`, but the first. -/
def PlainPhase : Phase → Prop
  | .whole queue => ∀ reply ∈ queue, reply.Plain
  | .inside broken queue => broken.Plain ∧ ∀ reply ∈ queue, reply.Plain

theorem exists_step (hplain : ∀ p image name, (A.reply p image name).Plain) {phase : Phase}
    (h : PlainPhase phase) (f : Filter σ) (store : ObjectStore ω) (object : ω) :
    ∃ phase', Step A f store object phase phase' ∧ PlainPhase phase' := by
  by_cases hs : ∃ object' image, Sends f store object object' image
  · obtain ⟨object', image, hs⟩ := hs
    have hown : ∀ queue : List WellFormed, (∀ reply ∈ queue, reply.Plain) →
        ∀ reply ∈ queue ++ [own A f image], reply.Plain := by
      intro queue hq reply hr
      rcases List.mem_append.mp hr with hr | hr
      · exact hq reply hr
      · rw [List.mem_singleton.mp hr]
        exact hplain _ _ _
    cases phase with
    | whole queue =>
      obtain ⟨first, rest, hq, -⟩ := exists_first (own A f image) queue
      have hall := hown queue h
      rw [hq, List.forall_mem_cons] at hall
      rcases ho : offer (keep store) object' first.attributes with ⟨object'', ⟨err, left⟩ | ⟨⟩⟩
      · exact ⟨_, .refused hs hq ho, hall⟩
      · exact ⟨_, .read hs hq ho, hall.2⟩
    | inside broken queue => exact ⟨_, .met hs h.1, hown queue h.2⟩
  · exact ⟨phase, .unsent fun object' image hsends => hs ⟨object', image, hsends⟩, h⟩

/-- **If no reply holds another `BEGIN` line, every run is a course.** -/
theorem exists_course (hplain : ∀ p image name, (A.reply p image name).Plain)
    (calls : List (ObjectStore ω × ω)) {phase : Phase} (h : PlainPhase phase) (f : Filter σ)
    (s : System) : ∃ phase', Course A phase f s calls phase' := by
  induction calls generalizing phase f s with
  | nil => exact ⟨phase, .nil⟩
  | cons call calls ih =>
    obtain ⟨store, object⟩ := call
    obtain ⟨phase', hstep, h'⟩ := exists_step hplain h f store object
    obtain ⟨phase'', hc⟩ := ih h' (f.evaluate programs store object s).filter
      (f.evaluate programs store object s).system
    exact ⟨phase'', .cons hstep hc⟩

/-! ### Whose score an evaluation gives -/

theorem told_whole_nil (own : WellFormed) : told own (.whole []) = own.score :=
  rfl

/-- **When a score is that of the evaluation's own reply.** A filter that was just started scores
objects, and then one more, which gives a score. If no evaluation before was broken off by a refused
attribute, that is the score of the reply to its own request. In every course of evaluations it is
that exactly in this case, or if what is told in the reply's place happens to be the same: the
sentinel right behind a broken reply, else the score of the first reply that stands unread. -/
theorem score_own_iff_unbroken {calls : List (ObjectStore ω × ω)} {n : Int}
    (h : Holds A (.whole []) f)
    (hn : ((evaluateAll programs calls f s).1.evaluate programs store object
      (evaluateAll programs calls f s).2).answer = .ok n) :
    (Unbroken A calls f s → ∃ object' image,
      Sends (evaluateAll programs calls f s).1 store object object' image ∧
        n = (own A (evaluateAll programs calls f s).1 image).score) ∧
    ∀ phase, Course A (.whole []) f s calls phase → ∃ object' image,
      Sends (evaluateAll programs calls f s).1 store object object' image ∧
        (n = (own A (evaluateAll programs calls f s).1 image).score ↔
          Unbroken A calls f s ∨
            told (own A (evaluateAll programs calls f s).1 image) phase =
              (own A (evaluateAll programs calls f s).1 image).score) := by
  constructor
  · intro hu
    exact score_eq_told (holds_of_course (course_of_unbroken hu) h) hn
  · intro phase hc
    obtain ⟨object', image, hs, rfl⟩ := score_eq_told (holds_of_course hc h) hn
    refine ⟨object', image, hs, .inr, ?_⟩
    rintro (hu | htold)
    · rw [(whole_nil_of_course_iff hc).mpr ⟨rfl, hu⟩, told_whole_nil]
    · exact htold

/-! ### A refused attribute -/

/-- A store that has nothing but data, and accepts what is written or refuses it. -/
def plainStore (accepts : Bool) : ObjectStore Unit where
  read _ _ := ((), .ok (some []))
  write _ _ _ := ((), if accepts then .ok () else .error (.host "refused"))

/-- Replies with an attribute each, whose results are 7, 8, 9 and so on. -/
def ascending (k : Nat) : WellFormed :=
  Content.wellFormed {
    attributes := [⟨ascii "k", ascii "v"⟩]
    payload := [UInt8.ofNat (0x37 + k)]
    keys_fit := by decide
    values_fit := by decide
    payload_fits := (by decide : 1 < Count.lengthLimit) }

def ascendingPrograms : Programs Nat where
  worker := Program.replying ascending
  startWorker _ _ := .ok 0
  startServer _ _ _ := .ok []

def ascendingAnswers : Answering ascendingPrograms.worker :=
  Answering.replying ascending

/-- A filter of such a worker. -/
def ascendingFilter : Filter Nat where
  name := "imagej"
  script := "score"
  worker := { process := { state := 0 }, lease := none, workspace := none }
  replyForm := .framed
  imageSource := .object
  framingPolicy := .isolate

def bareSystem : System where
  disk := {}
  temporary := []

def afterRefusal (more : List (ObjectStore Unit × Unit)) : Filter Nat × System :=
  evaluateAll ascendingPrograms ((plainStore false, ()) :: more) ascendingFilter bareSystem

theorem holds_ascendingFilter : Holds ascendingAnswers (.whole []) ascendingFilter :=
  ⟨rfl, rfl, .whole rfl ⟨rfl, rfl, rfl, rfl⟩ .fresh⟩

theorem course_of_refusal :
    Course ascendingAnswers (.whole []) ascendingFilter bareSystem [(plainStore false, ())]
      (.inside (ascending 0) []) := by
  have hs : Sends ascendingFilter (plainStore false) () () [] := ⟨rfl, by decide⟩
  have ho : offer (keep (plainStore false)) () (ascending 0).attributes =
      ((), .error (.host "refused", [])) := by rfl
  exact .cons (.refused hs rfl ho) .nil

/-- Right behind a refusal, the score that is given is the sentinel. -/
theorem score_behind_refusal :
    Holds ascendingAnswers (.whole []) ascendingFilter ∧
      ((afterRefusal []).1.evaluate ascendingPrograms (plainStore true) ()
        (afterRefusal []).2).answer = .ok (-1) ∧
      ∃ object' image, Sends (afterRefusal []).1 (plainStore true) () object' image ∧
        (-1 = (own ascendingAnswers (afterRefusal []).1 image).score ↔
          Unbroken ascendingAnswers [(plainStore false, ())] ascendingFilter bareSystem ∨
            sentinelScore = (own ascendingAnswers (afterRefusal []).1 image).score) := by
  have hn : ((afterRefusal []).1.evaluate ascendingPrograms (plainStore true) ()
      (afterRefusal []).2).answer = .ok (-1) := by decide +kernel
  exact ⟨holds_ascendingFilter, hn,
    (score_own_iff_unbroken holds_ascendingFilter hn).2 _ course_of_refusal⟩

/-- Where an attribute of the first reply is refused, the second evaluation gives the sentinel and
not its own score, which is 8, and the third gives that and not its own, which is 9. -/
theorem refused_attribute_costs_scores :
    Holds ascendingAnswers (.whole []) ascendingFilter ∧
      ((afterRefusal []).1.evaluate ascendingPrograms (plainStore true) ()
        (afterRefusal []).2).answer = .ok (-1) ∧
      (own ascendingAnswers (afterRefusal []).1 []).score = 8 ∧
      ((afterRefusal [(plainStore true, ())]).1.evaluate ascendingPrograms (plainStore true) ()
        (afterRefusal [(plainStore true, ())]).2).answer = .ok 8 ∧
      (own ascendingAnswers (afterRefusal [(plainStore true, ())]).1 []).score = 9 := by
  refine ⟨holds_ascendingFilter, ?_, ?_, ?_, ?_⟩
  all_goals decide +kernel

end Filter

end ImageScoring
