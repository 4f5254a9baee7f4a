import ImageScoring.Proofs.Worker.Watching
import Mathlib.Data.List.Forall2

/-!
# Asking whether a worker runs

Two runs are compared: in both the same operations are performed and the process does the same at
the same moments, but only in one of them it is asked then whether it runs. What is left in the end
is the same (`alike_play`). Answers differ exactly if the end would have been told for the first
time behind such a question (`polling_unnoticed_iff`).
-/

namespace ImageScoring

namespace Worker

variable {σ ω : Type} {program : Program σ}

/-! ### Operations and moments -/

/-- Something that happens: an operation, or a moment in which the process goes on by itself, and is
asked whether it still runs, or is not. -/
inductive Event (ω : Type) where
  | operation (op : Operation ω)
  | moment (polled : Bool)

/-- The same, but the process is not asked. -/
def Event.unpolled : Event ω → Event ω
  | .operation op => .operation op
  | .moment _ => .moment false

/-- The worker after a moment. -/
def moment (program : Program σ) (polled : Bool) (w : Worker σ) : Worker σ :=
  if polled then (w.isRunning program).1 else w.heard program

/-- The scene after some events, and the answers of the operations among them. -/
def play (program : Program σ) : List (Event ω) → Scene σ ω → Scene σ ω × List Answer
  | [], scene => (scene, [])
  | .moment polled :: events, scene =>
    play program events { scene with worker := scene.worker.moment program polled }
  | .operation op :: events, scene =>
    let (scene, answer) := op.perform program scene
    let (scene, answers) := play program events scene
    (scene, answer :: answers)

theorem play_append (program : Program σ) (events more : List (Event ω)) (scene : Scene σ ω) :
    play program (events ++ more) scene =
      ((play program more (play program events scene).1).1,
        (play program events scene).2 ++ (play program more (play program events scene).1).2) := by
  induction events generalizing scene with
  | nil => rfl
  | cons event events ih =>
    cases event with
    | operation op =>
      simp only [List.cons_append, play]
      rw [ih]
    | moment polled => exact ih _

variable {x y : Worker σ} {a b : Scene σ ω}

/-- Asking whether a worker runs leaves it as if it had not been asked, but for what is known: the
end of the process is known from then on if there is one. -/
theorem Follows.isRunning (program : Program σ) (h : Follows x y) :
    Follows (x.isRunning program).1 (y.heard program) ∧
      (x.isRunning program).1.reaped = (y.heard program).process.ended.isSome := by
  have hheard := h.heard program
  have hended := congrArg Option.isSome hheard.process_ended
  unfold Worker.isRunning
  cases hreaped : x.reaped with
  | true =>
    have hsame : x.heard program = x := by
      unfold Worker.heard
      rw [Process.advance_of_ended (h.ended hreaped)]
    rw [hsame] at hheard hended
    exact ⟨hheard, (hreaped.trans (h.ended hreaped).symm).trans hended⟩
  | false =>
    have hunasked : (x.collect program).1.unasked = (x.heard program).unasked := rfl
    refine ⟨⟨hunasked.trans hheard.unasked, fun hy => ?_, fun hx => hx⟩, hended⟩
    exact absurd (h.known hy) (by simp [hreaped])

theorem Alike.moment (program : Program σ) (h : Alike a b) (polled : Bool) :
    Alike { a with worker := a.worker.moment program polled }
      { b with worker := b.worker.moment program false } := by
  cases polled with
  | true => exact ⟨(h.worker.isRunning program).1, h.system, h.store⟩
  | false => exact ⟨h.worker.heard program, h.system, h.store⟩

/-- **Whatever happens**, what is left is the same whether it is asked in between or not, and the
answers are the same apart from what they tell of the end. -/
theorem alike_play (program : Program σ) (events : List (Event ω)) (h : Alike a b) :
    Alike (play program events a).1 (play program (events.map .unpolled) b).1 ∧
      List.Forall₂ Dimmed (play program (events.map .unpolled) b).2 (play program events a).2 := by
  induction events generalizing a b with
  | nil => exact ⟨h, .nil⟩
  | cons event events ih =>
    cases event with
    | operation op =>
      obtain ⟨halike, hmatched⟩ := matched_perform program op h
      obtain ⟨hrest, hanswers⟩ := ih halike
      exact ⟨hrest, .cons hmatched.dimmed hanswers⟩
    | moment polled => exact ih (h.moment program polled)

/-! ### Ends that are told -/

/-- Whether an answer depends on what is known of the end: it names the end, or waiting for the end
has failed. -/
def Answer.tellsEnd : Answer → Bool
  | .sent told => (failure told).any Error.namesEnd
  | .answered told => (failure told).any Error.namesEnd
  | .tornDown told => (failure told).isSome

/-- The end of a process is never told as that it still runs. -/
theorem reason_ne_stillRunning (ended : ProcessEnd) : ended.reason ≠ .stillRunning := by
  cases ended with
  | exited code => rintro ⟨⟩
  | signaled number core =>
    rw [ProcessEnd.reason]
    split <;> rintro ⟨⟩

theorem Dims.eq {e e' : Error} (h : Dims e e') (hsilent : e.namesEnd = false) : e' = e := by
  cases h with
  | same => rfl
  | ended ended context detail =>
    have hreason : ended.reason = .unknown := by
      have hnot := (Error.namesEnd_workerGone_iff ended.reason (some context) (some detail)).not.mp
        (Bool.eq_false_iff.mp hsilent)
      rw [not_and_or, not_not, not_not] at hnot
      exact hnot.resolve_right (reason_ne_stillRunning ended)
    rw [endError, hreason]
    rfl

/-- An answer that does not tell the end is the same in both cases. -/
theorem Dimmed.eq {answer answer' : Answer} (h : Dimmed answer answer')
    (hsilent : answer.tellsEnd = false) : answer' = answer := by
  cases h with
  | same => rfl
  | sent hdims => rw [hdims.eq hsilent]
  | answered hdims => rw [hdims.eq hsilent]
  | tornDown => cases hsilent

/-- So are all the answers if none tells the end. -/
theorem eq_of_dimmed {answers answers' : List Answer} (h : List.Forall₂ Dimmed answers answers')
    (hsilent : ∀ answer ∈ answers, answer.tellsEnd = false) : answers' = answers := by
  induction h with
  | nil => rfl
  | cons hdimmed _ ih =>
    obtain ⟨hfirst, hrest⟩ := List.forall_mem_cons.mp hsilent
    rw [hdimmed.eq hfirst, ih hrest]

/-- A question between these events is the first to see the end of the process, and without it the
end would be told behind. -/
def Preempts (program : Program σ) (scene : Scene σ ω) (before behind : List (Event ω)) : Prop :=
  let here := (play program (before.map .unpolled ++ [.moment false]) scene).1
  here.worker.process.ended.isSome = true ∧ here.worker.reaped = false ∧
    ∃ answer ∈ (play program (behind.map .unpolled) here).2, answer.tellsEnd = true

/-- If as much is known of the end in both scenes, and no question is the first to see an end that
is told later, all the answers are the same. -/
theorem answers_eq (events : List (Event ω)) (h : Alike a b)
    (hlevel : a.worker.reaped = b.worker.reaped)
    (hunseen : ∀ before behind, events = before ++ .moment true :: behind →
      ¬ Preempts program b before behind) :
    (play program events a).2 = (play program (events.map .unpolled) b).2 := by
  induction events generalizing a b with
  | nil => rfl
  | cons event events ih =>
    cases event with
    | operation op =>
      obtain ⟨halike, hmatched⟩ := matched_perform program op h
      obtain ⟨hanswer, hlevel⟩ := hmatched.level hlevel
      have hrest := ih halike hlevel fun before behind hsplit =>
        hunseen (.operation op :: before) behind (by rw [hsplit]; rfl)
      exact congrArg₂ List.cons hanswer hrest
    | moment polled =>
      have halike := h.moment program polled
      have hlater (before behind : List (Event ω))
          (hsplit : events = before ++ .moment true :: behind) :=
        hunseen (.moment polled :: before) behind (by rw [hsplit]; rfl)
      cases polled with
      | false => exact ih halike hlevel hlater
      | true =>
        obtain ⟨-, hasked⟩ := h.worker.isRunning program
        by_cases hstill : (a.worker.isRunning program).1.reaped = b.worker.reaped
        · exact ih halike hstill hlater
        · -- the question was the first to see the end, so nothing is told of it any more
          have hb : b.worker.reaped = false := eq_false_of_ne_true fun hb =>
            hstill ((halike.worker.known hb).trans hb.symm)
          have hended : (b.worker.heard program).process.ended.isSome = true := by
            rw [hasked, hb] at hstill
            exact eq_true_of_ne_false hstill
          exact eq_of_dimmed (alike_play program events halike).2 fun answer hanswer =>
            eq_false_of_ne_true fun htells =>
              hunseen [] events rfl ⟨hended, hb, answer, hanswer, htells⟩

/-! ### Ends that are not told any more -/

/-- What is done with a worker whose end is known does not tell it. -/
theorem Turn.silent {w w' : Worker σ} {refusals : Error → Prop} {failed : Option Error}
    (h : Turn program refusals w failed w') (hreaped : w.reaped = true)
    (hrefusals : ∀ e, refusals e → e.namesEnd = false) : failed.any Error.namesEnd = false := by
  cases h with
  | onward _ hfailed =>
    refine (Option.any_eq_false _ _).mpr fun e he => eq_false_of_ne_true fun hnames => ?_
    rw [hrefusals e (hfailed e he hnames)] at hnames
    cases hnames
  | gone context detail hw =>
    refine eq_false_of_ne_true fun hnames => ?_
    have hunknown := hw.reaped.symm.trans (gone_namesEnd hnames).1
    rw [hreaped] at hunknown
    cases hunknown
  | look _ => rfl
  | teardown s hfailed => exact (Option.any_eq_false _ _).mpr hfailed

/-- The sinks refuse attributes with no error that looks like the end of a worker. -/
def Plain (events : List (Event ω)) : Prop :=
  ∀ form sink, .operation (.read form sink) ∈ events → ∀ e, sink.Refuses e → e.namesEnd = false

theorem reaped_of_later {w w' : Worker σ} (h : w.Later w') (hreaped : w.reaped = true) :
    w'.reaped = true :=
  eq_true_of_ne_false fun hno => by
    rw [h.reaped hno] at hreaped
    cases hreaped

/-- Once the end is known, no operation tells it, and it stays known. -/
theorem silent_perform (program : Program σ) {scene : Scene σ ω}
    (hreaped : scene.worker.reaped = true) (op : Operation ω) (hplain : Plain [.operation op]) :
    (op.perform program scene).2.tellsEnd = false ∧
      (op.perform program scene).1.worker.reaped = true := by
  cases op with
  | send image name =>
    have hturn : Turn program (fun e => e.namesEnd = false) scene.worker _ _ :=
      turn_send image name
    exact ⟨hturn.silent hreaped fun _ => id, reaped_of_later hturn.later hreaped⟩
  | read form sink =>
    have hturn : Turn program (fun e => e.namesEnd = false) scene.worker _ _ :=
      turn_read form sink scene.store (hplain form sink (List.mem_singleton.mpr rfl))
    exact ⟨hturn.silent hreaped fun _ => id, reaped_of_later hturn.later hreaped⟩
  | teardown =>
    refine ⟨?_, reaped_of_later (later_teardown scene.system) hreaped⟩
    have hknown : scene.worker.endKnown program = true := Bool.or_eq_true_iff.mpr (.inl hreaped)
    simp only [Operation.perform]
    rw [teardown_eq, hknown]
    split <;> rfl

theorem silent_play (events : List (Event ω)) {scene : Scene σ ω}
    (hreaped : scene.worker.reaped = true) (hplain : Plain events) :
    ∀ answer ∈ (play program events scene).2, answer.tellsEnd = false := by
  induction events generalizing scene with
  | nil => exact fun answer hnone => absurd hnone List.not_mem_nil
  | cons event events ih =>
    have hrest : Plain events := fun form sink hmem =>
      hplain form sink (List.mem_cons_of_mem event hmem)
    cases event with
    | operation op =>
      obtain ⟨hsilent, hreaped⟩ := silent_perform program hreaped op
        fun form sink hmem => hplain form sink (by simp_all)
      exact List.forall_mem_cons.mpr ⟨hsilent, ih hreaped hrest⟩
    | moment polled =>
      refine ih ?_ hrest
      cases polled with
      | true =>
        have hasked : scene.worker.isRunning program = (scene.worker, false) := if_pos hreaped
        change (scene.worker.isRunning program).1.reaped = true
        rw [hasked]
        exact hreaped
      | false => exact hreaped

/-- If a question was the first to see an end that is told later, the answers differ. -/
theorem answers_ne {before behind : List (Event ω)} (h : Alike a b) (hplain : Plain behind)
    (hpreempts : Preempts program b before behind) :
    (play program (before ++ .moment true :: behind) a).2 ≠
      (play program ((before ++ .moment true :: behind).map .unpolled) b).2 := by
  obtain ⟨hended, -, answer, hanswer, htells⟩ := hpreempts
  have hreaped : (play program (before ++ [.moment true]) a).1.worker.reaped = true := by
    obtain ⟨-, hasked⟩ := (alike_play program before h).1.worker.isRunning program
    rw [play_append] at hended ⊢
    exact hasked.trans hended
  obtain ⟨-, hanswers⟩ := alike_play program (before ++ [.moment true]) h
  have hunpolled : (before ++ .moment true :: behind).map Event.unpolled =
      (before.map .unpolled ++ [.moment false]) ++ behind.map .unpolled := by
    simp [Event.unpolled]
  intro hsame
  -- both runs are cut behind the question, so what they answer after it would be the same
  rw [hunpolled, List.append_cons, play_append program (before ++ [Event.moment true]),
    play_append program (before.map Event.unpolled ++ [Event.moment false])] at hsame
  rw [List.map_append] at hanswers
  obtain ⟨-, hbehind⟩ := List.append_inj hsame hanswers.length_eq.symm
  rw [← hbehind] at hanswer
  rw [silent_play behind hreaped hplain answer hanswer] at htells
  cases htells

/-! ### Questions that are noticed -/

/-- **Asking whether a worker runs is noticed exactly if it preempts an answer.** Whatever is done
with a worker, and whatever its process does: if it is asked at some moments whether it runs, the
worker is left as it would have been, apart from what it was asked and what is known of its end, and
so are the system and what the attributes are stored in. The answers differ only in that the end is
not told. They are all the same if and only if no question comes between the end of the process and
an answer that would have told it for the first time, unless a sink refuses an attribute with an
error that looks like an end. -/
theorem polling_unnoticed_iff (program : Program σ) (events : List (Event ω)) (scene : Scene σ ω)
    (hreaped : scene.worker.reaped = true → scene.worker.process.ended.isSome = true) :
    let watched := play program events scene
    let alone := play program (events.map .unpolled) scene
    (watched.1.worker.unasked = alone.1.worker.unasked ∧
      watched.1.system = alone.1.system ∧ watched.1.store = alone.1.store) ∧
    List.Forall₂ Dimmed alone.2 watched.2 ∧
    (Plain events →
      (watched.2 = alone.2 ↔ ∀ before behind, events = before ++ .moment true :: behind →
        ¬ Preempts program scene before behind)) := by
  have hscene : Alike scene scene := ⟨⟨rfl, id, hreaped⟩, rfl, rfl⟩
  obtain ⟨hleft, hanswers⟩ := alike_play program events hscene
  refine ⟨⟨hleft.worker.unasked, hleft.system, hleft.store⟩, hanswers, fun hplain => ?_⟩
  constructor
  · rintro hsame before behind rfl hpreempts
    have hbehind : Plain behind := fun form sink hmem => hplain form sink (by simp [hmem])
    exact answers_ne hscene hbehind hpreempts hsame
  · exact answers_eq events hscene rfl

/-- A worker that leaves with the code three as soon as it is turned to. -/
def leavingScene : Scene Unit Unit where
  worker := leavingWorker
  system := { disk := {}, temporary := [] }
  store := ()

/-- A reply is read, of which no attribute is kept. -/
def readingOnly : Event Unit :=
  .operation (.read .framed fun store _ => (store, .ok ()))

/-- The reading tells the end. After that nobody notices that the worker is asked. -/
theorem asking_behind_answer_unnoticed :
    let events := [readingOnly, .moment true, .operation .teardown]
    let watched := play leavingPrograms.worker events leavingScene
    let alone := play leavingPrograms.worker (events.map .unpolled) leavingScene
    watched.1.worker.unasked = alone.1.worker.unasked ∧ watched.1.system = alone.1.system ∧
    alone.2 = [.answered (.error (.workerGone
        "worker exited with code 3 while reading the reply: stream closed mid-record")),
      .tornDown (.ok ())] ∧
    watched.2 = alone.2 ∧
    ¬ Preempts leavingPrograms.worker leavingScene [readingOnly] [.operation .teardown] := by
  intro events watched alone
  have hplain : Plain events := by
    rintro form sink hmem e ⟨store, attr, hrefused⟩
    obtain ⟨rfl, hsink⟩ : form = .framed ∧ sink = fun store _ => (store, .ok ()) := by
      simpa [events, readingOnly] using hmem
    rw [hsink] at hrefused
    cases hrefused
  have hsame : watched.2 = alone.2 := by decide +kernel
  obtain ⟨⟨hworker, hsystem, -⟩, -, hunnoticed⟩ :=
    polling_unnoticed_iff leavingPrograms.worker events leavingScene (by rintro ⟨⟩)
  exact ⟨hworker, hsystem, by decide +kernel, hsame,
    (hunnoticed hplain).mp hsame [readingOnly] [.operation .teardown] rfl⟩

/-- **The end of a worker is lost by asking whether it runs.** Asked before the reply is read, the
worker that left with the code three has stopped for an unknown reason. -/
theorem asking_hides_end :
    let watched := play leavingPrograms.worker [.moment true, readingOnly] leavingScene
    let alone := play leavingPrograms.worker [.moment false, readingOnly] leavingScene
    alone.2 = [.answered (.error (.workerGone
      "worker exited with code 3 while reading the reply: stream closed mid-record"))] ∧
    watched.2 = [.answered (.error (.workerGone
      "worker stopped for an unknown reason while reading the reply: stream closed mid-record"))] ∧
    watched.2 ≠ alone.2 := by
  refine ⟨?_, ?_, ?_⟩ <;> decide +kernel

end Worker

end ImageScoring
