import ImageScoring.Proofs.Filter.Confinement
import ImageScoring.Proofs.Filter.Release
import ImageScoring.Proofs.Host.Asking
import ImageScoring.Proofs.Reply.Opening

/-!
# Filters that give their worker up

A filter can be told to tear its worker down when a reply is malformed. The evaluation that meets
such a reply for the first time still gives the object what the reply has told, and the sentinel;
every later one fails without asking anything of a worker, for there is none (`teardown_is_final`).
-/

namespace ImageScoring

open Reply

variable {σ ω : Type}

/-- The attributes of an object can be read, and all that is written is accepted. -/
structure ObjectStore.Accepts (store : ObjectStore ω) : Prop where
  read : ∀ name object, ∃ value, (store.read name object).2 = .ok value
  write : ∀ name value object, (store.write name value object).2 = .ok ()

namespace Worker

variable {program : Program σ} {w w' : Worker σ}

/-! ### The note of a malformed reply -/

theorem resync_exitReason (program : Program σ) (w : Worker σ) :
    (w.exitReason program).1.resync = w.resync := by
  obtain ⟨-, hreason⟩ | ⟨hreaped, hreason⟩ := exitReason_cases program w
  · rw [hreason]
  · rw [hreason]
    exact collectWithin_keeps (P := fun w' => w'.resync = w.resync) (fun _ _ h => h) graceLooks
      hreaped rfl

theorem resync_gone (program : Program σ) (context detail : String) (w : Worker σ) :
    (w.gone program context detail).1.resync = w.resync :=
  resync_exitReason program w

theorem resync_send (program : Program σ) (image name : Bytes) (w : Worker σ) :
    (w.send program image name).1.resync = w.resync := by
  unfold send
  split
  · rfl
  · split
    · rfl
    · next process detail _ =>
      exact resync_gone program sending detail { w with process := process }

/-- A worker whose reply is not malformed has no note of it. -/
theorem resync_read {sink : Sink ω} {store : ω} (hw : w.resync = false)
    (h : ∀ error, (Session.run sink {} (w.heard program).reader store).answer ≠
      .ok (.framing error)) :
    (w.read program .framed sink store).1.resync = false := by
  have hrun : (Session.run sink {} (w.heard program).reader store).reader.resync = false :=
    Session.resync_of_well_run hw h
  unfold read readReply
  split
  · exact hw
  · dsimp only
    split
    · rw [resync_gone]
      exact hrun
    · exact hrun

/-- The outcome that is told is that of the session. -/
theorem outcome_of_read {sink : Sink ω} {store : ω} {outcome : Outcome}
    (h : (w.read program .framed sink store).2.2 = .ok outcome) :
    (Session.run sink {} (w.heard program).reader store).answer = .ok outcome := by
  unfold read readReply at h
  split at h
  · cases h
  · dsimp only at h
    split at h
    · cases h
    · exact h

/-- Only a worker that stands takes a request. -/
theorem tornDown_of_send {image name : Bytes} (h : w.send program image name = (w', .ok ())) :
    w'.tornDown = false := by
  have hretains : w.Retains (w.send program image name).1 := w.retains_send image name
  rw [h] at hretains
  rw [hretains.tornDown]
  by_contra hdown
  rw [send, if_pos (by simpa using hdown)] at h
  cases h

end Worker

namespace Filter

variable {programs : Programs σ} {config : Config} {f f₀ f' : Filter σ} {s s₀ s' : System}
  {store : ObjectStore ω} {object object' : ω} {r : Reader} {error : FramingError}

/-! ### Malformed replies -/

/-- The object once its image is read, and what the reply is read from. There is no reply if no
request is sent. -/
def reply? (programs : Programs σ) (store : ObjectStore ω) (object : ω) (f : Filter σ) :
    Option (ω × Reader) :=
  match readImage f.imageSource store object with
  | (_, .error _) => none
  | (object, .ok image) =>
    match f.worker.send programs.worker image (Utf8.ofText f.script) with
    | (_, .error _) => none
    | (worker, .ok ()) => some (object, (worker.heard programs.worker).reader)

/-- An evaluation gets a malformed reply. -/
structure Meets (programs : Programs σ) (f : Filter σ) (store : ObjectStore ω) (object object' : ω)
    (r : Reader) (error : FramingError) : Prop where
  replied : f.reply? programs store object = some (object', r)
  malformed : (Session.run (keep store) {} r object').answer = .ok (.framing error)

/-- Any number of objects are scored one after the other, and no reply is malformed. -/
inductive Untroubled (programs : Programs σ) (f : Filter σ) (s : System) :
    Filter σ → System → Prop where
  | refl : Untroubled programs f s f s
  | step {ω : Type} {f' : Filter σ} {s' : System} (store : ObjectStore ω) (object : ω) :
      Untroubled programs f s f' s' →
      (∀ object' r error, ¬Meets programs f' store object object' r error) →
      Untroubled programs f s (f'.evaluate programs store object s').filter
        (f'.evaluate programs store object s').system

theorem Untroubled.evaluations (h : Untroubled programs f s f' s') :
    Evaluations programs f s f' s' := by
  induction h with
  | refl => exact .refl
  | step store object _ _ ih => exact ih.step store object

theorem sent_of_reply? (h : f.reply? programs store object = some (object', r)) :
    ∃ image w, readImage f.imageSource store object = (object', .ok image) ∧
      f.worker.send programs.worker image (Utf8.ofText f.script) = (w, .ok ()) ∧
      r = (w.heard programs.worker).reader := by
  unfold reply? at h
  split at h
  · cases h
  · next object₁ image hread =>
    split at h
    · cases h
    · next w hsend =>
      cases h
      exact ⟨image, w, hread, hsend, rfl⟩

theorem reply?_of_sent {image : Bytes} {w : Worker σ}
    (hread : readImage f.imageSource store object = (object', .ok image))
    (hsend : f.worker.send programs.worker image (Utf8.ofText f.script) = (w, .ok ())) :
    f.reply? programs store object = some (object', (w.heard programs.worker).reader) := by
  unfold reply?
  rw [hread]
  dsimp only
  rw [hsend]

/-! ### Filters that have met none -/

/-- The filter reads framed replies and gives its worker up after a malformed one, of which there
was none. -/
structure Strict (f : Filter σ) : Prop where
  framed : f.replyForm = .framed
  teardown : f.framingPolicy = .teardown
  resync : f.worker.resync = false

theorem Strict.evaluate (h : f.Strict) (s : System)
    (hwell : ∀ object' r error, ¬Meets programs f store object object' r error) :
    (f.evaluate programs store object s).filter.Strict := by
  have hkept : ∀ {w : Worker σ}, w.resync = false → Strict { f with worker := w } :=
    fun hw => ⟨h.framed, h.teardown, hw⟩
  unfold Filter.evaluate
  rcases hread : readImage f.imageSource store object with ⟨object', e | image⟩
  · exact h
  · dsimp only
    have hsent := f.worker.resync_send programs.worker image (Utf8.ofText f.script)
    rw [h.resync] at hsent
    unfold evaluateImage
    rcases hsend : f.worker.send programs.worker image (Utf8.ofText f.script) with ⟨w, e | ⟨⟩⟩
    · rw [hsend] at hsent
      exact hkept hsent
    · rw [hsend] at hsent
      have hno : ∀ error, (Session.run (keep store) {} (w.heard programs.worker).reader
          object').answer ≠ .ok (.framing error) :=
        fun error hframing => hwell _ _ error ⟨reply?_of_sent hread hsend, hframing⟩
      have hafter : (w.read programs.worker f.replyForm (keep store) object').1.resync = false := by
        rw [h.framed]
        exact Worker.resync_read hsent hno
      dsimp only [evaluateReply]
      rcases hreply : w.read programs.worker f.replyForm (keep store) object' with
        ⟨w', object'', e | outcome⟩
      · rw [hreply] at hafter
        exact hkept hafter
      · rw [hreply] at hafter
        rw [h.framed] at hreply
        have houtcome := Worker.outcome_of_read (congrArg (·.2.2) hreply)
        cases outcome with
        | framing error => exact absurd houtcome (hno error)
        | completed value count =>
          dsimp only [afterReply]
          split <;> exact hkept hafter

theorem Untroubled.strict (h : Untroubled programs f₀ s₀ f s) (hf : f₀.Strict) : f.Strict := by
  induction h with
  | refl => exact hf
  | step store object _ hwell ih => exact ih.evaluate _ hwell

/-! ### The evaluation that meets one -/

/-- Its reply is read from its first line on. -/
theorem Meets.resync (h : Meets programs f store object object' r error) (hf : f.Strict) :
    r.resync = false := by
  obtain ⟨image, w, -, hsend, rfl⟩ := sent_of_reply? h.replied
  have hsent := f.worker.resync_send programs.worker image (Utf8.ofText f.script)
  rw [hsend] at hsent
  exact hsent.trans hf.resync

theorem keep_eq_accepting (h : ∀ name value object, (store.write name value object).2 = .ok ()) :
    keep store = accepting fun object a => (keep store object a).1 := by
  funext object a
  refine Prod.ext rfl ?_
  unfold keep
  split
  · rfl
  · exact h _ _ _

/-- It tears the worker down and writes the sentinel. -/
theorem evaluate_of_meets (hf : f.Strict) (s : System)
    (hwrite : ∀ name value object, (store.write name value object).2 = .ok ())
    (h : Meets programs f store object object' r error) :
    ∃ w, Worker.Uses programs.worker f.worker s w s ∧
      f.evaluate programs store object s =
        ⟨.ok sentinelScore, { f with worker := (w.teardown programs.worker s).1 },
          (w.teardown programs.worker s).2.1,
          (store.write resultAttribute (resultOctets sentinel)
            (Session.run (keep store) {} r object').store).1⟩ := by
  obtain ⟨image, w, hread, hsend, rfl⟩ := sent_of_reply? h.replied
  have hstands := Worker.tornDown_of_send hsend
  have hreply := Worker.read_of_outcome hstands rfl h.malformed
  rw [← hf.framed] at hreply
  have hsent : Worker.Uses programs.worker f.worker s
      (f.worker.send programs.worker image (Utf8.ofText f.script)).1 s :=
    .step .refl (.send image _)
  rw [hsend] at hsent
  have huses := hsent.step (.read f.replyForm (keep store) object')
  rw [hreply] at huses
  refine ⟨_, huses, ?_⟩
  rw [evaluate_of_read hread hsend hreply]
  dsimp only [afterReply]
  rw [hf.teardown]
  dsimp only [Outcome.value]
  rw [hwrite, score_sentinel]
  rfl

/-! ### Images of objects that can be read -/

section Images

open Host (Settled andThen)

theorem settled_andThen {α β : Type} {first : ω → ω × Except Error α}
    {next : α → ω → ω × Except Error β} (hfirst : ∀ object, Settled (first object).2)
    (hnext : ∀ x object, Settled (next x object).2) (object : ω) :
    Settled (andThen first next object).2 := by
  have hsettled := hfirst object
  unfold andThen
  rcases hanswer : first object with ⟨object', e | x⟩
  · rw [hanswer] at hsettled
    obtain ⟨name, problem, rfl⟩ := hsettled e rfl
    exact Host.settled_badAttribute name problem
  · exact hnext x object'

theorem settled_required (h : store.Accepts) (name : String) (object : ω) :
    Settled (required store name object).2 := by
  obtain ⟨value, hvalue⟩ := h.read name object
  unfold required
  rcases hread : store.read name object with ⟨object', answer⟩
  rw [hread] at hvalue
  obtain rfl : answer = .ok value := hvalue
  cases value with
  | none => exact Host.settled_badAttribute name _
  | some value => exact Host.settled_ok value

theorem settled_readDimension (h : store.Accepts) (name : String) (object : ω) :
    Settled (readDimension store name object).2 := by
  rw [Host.readDimension_eq]
  exact settled_andThen (settled_required h name)
    (fun value _ => Host.settled_dimension name value) object

theorem settled_readPayload (h : store.Accepts) (source : ImageSource) (object : ω) :
    Settled (readPayload source store object).2 := by
  cases source with
  | object =>
    rw [Host.readPayload_object]
    exact settled_andThen (settled_required h dataAttribute) (fun _ _ => Host.settled_ok _) object
  | rgb =>
    rw [Host.readPayload_rgb]
    refine settled_andThen (settled_readDimension h rowsAttribute) (fun height => ?_) object
    refine settled_andThen (settled_readDimension h columnsAttribute) (fun width => ?_)
    exact settled_andThen (settled_required h pixelsAttribute) (fun _ _ => Host.settled_ok _)

/-- The image of such an object can only fail to be had for an attribute that is not as it should
be. -/
theorem settled_readImage (h : store.Accepts) (source : ImageSource) (object : ω) :
    Settled (readImage source store object).2 := by
  rw [Host.readImage_eq]
  exact settled_andThen (settled_readPayload h source)
    (fun payload _ => Host.settled_frame payload) object

end Images

/-! ### Evaluations without a worker -/

/-- Reading an image writes nothing. -/
theorem readImage_unwritten (source : ImageSource) (store : ObjectStore ω) (object : ω)
    (write : String → Bytes → ω → ω × Except Error Unit) :
    readImage source { store with write := write } object = readImage source store object := by
  cases source with
  | object => rfl
  | rgb => rfl

/-- Such an evaluation reads the image, and that is all. -/
theorem evaluate_of_spent (h : f.worker.Spent programs.worker) (store : ObjectStore ω) (object : ω)
    (s : System) :
    f.evaluate programs store object s =
      ⟨(readImage f.imageSource store object).2.bind fun _ => .error Worker.tornDownError, f, s,
        (readImage f.imageSource store object).1⟩ := by
  unfold Filter.evaluate
  rcases readImage f.imageSource store object with ⟨object', e | image⟩
  · rfl
  · dsimp only
    rw [evaluateImage, h.send]
    rfl

theorem Evaluations.eq_of_spent (h : Evaluations programs f s f' s')
    (hspent : f.worker.Spent programs.worker) : f' = f ∧ s' = s := by
  induction h with
  | refl => exact ⟨rfl, rfl⟩
  | step store object _ ih =>
    obtain ⟨rfl, rfl⟩ := ih
    rw [evaluate_of_spent hspent]
    exact ⟨rfl, rfl⟩

/-- The filter scores nothing any more. Whatever objects it is given, nothing changes but what
reading their images changes, and nothing is written to them: it makes no difference what their
stores do with that. Every evaluation fails: the image cannot be had, or there is no worker. Nothing
is left to be finished. -/
structure Over (programs : Programs σ) (f : Filter σ) (s : System) : Prop where
  stays : ∀ f' s', Evaluations programs f s f' s' → f' = f ∧ s' = s
  reads : ∀ {ω : Type} (store : ObjectStore ω) (object : ω),
    f.evaluate programs store object s =
      ⟨(readImage f.imageSource store object).2.bind fun _ => .error Worker.tornDownError, f, s,
        (readImage f.imageSource store object).1⟩
  unwritten : ∀ {ω : Type} (store : ObjectStore ω) (object : ω)
    (write : String → Bytes → ω → ω × Except Error Unit),
    f.evaluate programs { store with write := write } object s =
      f.evaluate programs store object s
  fails : ∀ {ω : Type} (store : ObjectStore ω) (object : ω), store.Accepts →
    (f.evaluate programs store object s).answer = .error Worker.tornDownError ∨
      ∃ name problem,
        (readImage f.imageSource store object).2 = .error (.badAttribute name problem) ∧
        (f.evaluate programs store object s).answer = .error (.badAttribute name problem)
  finished : f.finish programs s = (f, s, .ok ())

theorem over_of_spent (h : f.worker.Spent programs.worker) (s : System) : f.Over programs s where
  stays _ _ hevaluations := hevaluations.eq_of_spent h
  reads store object := evaluate_of_spent h store object s
  unwritten store object write := by
    rw [evaluate_of_spent h, evaluate_of_spent h, readImage_unwritten]
  fails store object haccepts := by
    have hsettled := settled_readImage haccepts f.imageSource object
    rw [evaluate_of_spent h]
    rcases hread : readImage f.imageSource store object with ⟨object', e | image⟩
    · rw [hread] at hsettled
      obtain ⟨name, problem, rfl⟩ := hsettled e rfl
      exact .inr ⟨name, problem, rfl, rfl⟩
    · exact .inl rfl
  finished := by
    rw [finish, h.teardown]

/-! ### The whole course -/

/-- **Giving a worker up is final.** A filter is started that reads framed replies and gives its
worker up after a malformed one. The first evaluation that meets a malformed reply writes the
attributes that the reply tells before it goes wrong, and then the sentinel as the result, and gives
the score -1. By then all that was started is released: the worker's process is gone, and so is the
workspace. The filter scores nothing any more, and nothing is left to be finished. -/
theorem teardown_is_final {s₁ : System} {filterName : String} {args : List String} {bundle : Bytes}
    (hform : config.replyForm = .framed) (hpolicy : config.framingPolicy = .teardown)
    (hstart : start programs config filterName args bundle s₀ = (.ok f₀, s₁))
    (hbefore : Untroubled programs f₀ s₁ f s) (hstore : store.Accepts)
    (hmeets : Meets programs f store object object' r error) :
    let done := f.evaluate programs store object s
    (∃ attributes, Malformed r.ending attributes r.upcoming ∧
      done.object = (store.write resultAttribute (resultOctets sentinel)
        (attributes.foldl (fun object a => (keep store object a).1) object')).1) ∧
    done.answer = .ok (-1) ∧
    Released programs config s₀ done.system done.filter.worker ∧
    done.filter.Over programs done.system := by
  obtain ⟨hframed, -, hteardown⟩ := settings_of_start hstart
  obtain ⟨-, hstarted⟩ := start_unstarted_or_started programs config filterName args bundle s₀
  obtain ⟨workspace, lease, hf₀⟩ := hstarted f₀ s₁ hstart
  have hnew : f₀.Strict := by
    obtain ⟨state, -, hworker⟩ := hf₀.worker
    exact ⟨hframed.trans hform, hteardown.trans hpolicy, by rw [hworker]⟩
  have hstrict : f.Strict := hbefore.strict hnew
  obtain ⟨w, huses, hdone⟩ := evaluate_of_meets hstrict s hstore.write hmeets
  have hreleased := hf₀.released (hbefore.evaluations.uses.trans huses)
  have hresync := hmeets.resync hstrict
  have hmalformed := hmeets.malformed
  rw [keep_eq_accepting hstore.write] at hmalformed
  obtain ⟨attributes, hattributes, hobject⟩ := Session.malformed_of_run hresync hmalformed
  rw [← keep_eq_accepting hstore.write] at hobject
  intro done
  have heq : done = _ := hdone
  rw [heq]
  refine ⟨⟨attributes, hattributes, ?_⟩, rfl, hreleased, over_of_spent hreleased.spent _⟩
  dsimp only
  rw [hobject]

/-! ### A reply that goes wrong -/

/-- The malformed reply that an evaluation gets, if it gets one. -/
def met? (programs : Programs σ) (store : ObjectStore ω) (object : ω) (f : Filter σ) :
    Option FramingError :=
  match f.reply? programs store object with
  | none => none
  | some (object, r) =>
    match (Session.run (keep store) {} r object).answer with
    | .ok (.framing error) => some error
    | _ => none

theorem meets_of_met? (h : f.met? programs store object = some error) :
    ∃ object' r, Meets programs f store object object' r error := by
  unfold met? at h
  split at h
  · cases h
  · next object' r hreply =>
    split at h
    · next hframing =>
      cases h
      exact ⟨object', r, hreply, hframing⟩
    · cases h

/-- A worker whose replies go wrong behind an attribute. -/
def strayPrograms : Programs Unit where
  worker := fun _ unread =>
    if unread.isEmpty then ([], ())
    else ([.consume unread.length, .emit (ascii "BEGIN\nATTR\nK\n1\nk\nV\n1\nv\nX\n")], ())
  startWorker _ _ := .ok ()
  startServer _ _ _ := .ok [[.ready]]

def strictConfig : Config where
  sources := Workspace.smallSources
  framingPolicy := .teardown

theorem plainStore_accepts : (plainStore true).Accepts :=
  ⟨fun _ _ => ⟨_, rfl⟩, fun _ _ _ => rfl⟩

/-- The first evaluation meets such a reply, and it is the last one that gives a score. -/
theorem stray_line_is_final :
    ∃ f s object' r, start strayPrograms strictConfig "imagej" ["c2NvcmUA"] [] smallSystem =
        (.ok f, s) ∧
      Meets strayPrograms f (plainStore true) () object' r (.unexpectedLine (ascii "X")) ∧
      (f.evaluate strayPrograms (plainStore true) () s).answer = .ok (-1) ∧
      (f.evaluate strayPrograms (plainStore true) () s).filter.Over strayPrograms
        (f.evaluate strayPrograms (plainStore true) () s).system := by
  have hmet : ((start strayPrograms strictConfig "imagej" ["c2NvcmUA"] []
      smallSystem).1.toOption.bind fun f => f.met? strayPrograms (plainStore true) ()) =
      some (.unexpectedLine (ascii "X")) := by
    decide +kernel
  rcases hstart : start strayPrograms strictConfig "imagej" ["c2NvcmUA"] [] smallSystem with
    ⟨e | f, s⟩
  · rw [hstart] at hmet
    cases hmet
  · rw [hstart] at hmet
    obtain ⟨object', r, hmeets⟩ := meets_of_met? hmet
    obtain ⟨-, hanswer, -, hover⟩ :=
      teardown_is_final rfl rfl hstart .refl plainStore_accepts hmeets
    exact ⟨f, s, object', r, rfl, hmeets, hanswer, hover⟩

end Filter

end ImageScoring
