import ImageScoring.Host.Service
import ImageScoring.Proofs.Reply.Reading

/-!
# Conversations with the host

`Exchanges` and `Closing` say how the host's input and what the filter says in return go together,
once the filter is ready. Every command to evaluate has its `Block`: the questions, the attributes
that are set, and the score. The host's answers to the questions follow its command.

    host    evaluate, answers           filter  questions, attributes, a score
    host    evaluate, answers           filter  questions, attributes, a score
    host    shutdown, or the end

Nothing here reads or writes; that a filter takes part in a dialogue is the matter of
`ImageScoring.Proofs.Host.Transcript`.
-/

namespace ImageScoring.Host

open ImageScoring.Filter
open Reply (Line Sized)

variable {σ : Type}

/-! ### What the host says -/

/-- `Answer a stream rest`: the input starts with an answer, a string or the empty line for a
missing value. -/
inductive Answer : Option Bytes → Bytes → Bytes → Prop where
  | missing {stream rest : Bytes} : Line .closed [] stream rest → Answer none stream rest
  | value {content stream rest : Bytes} : Sized .closed content stream (newline :: rest) →
      Answer (some content) stream rest

/-- The input starts with these answers. -/
inductive Answers : List (Option Bytes) → Bytes → Bytes → Prop where
  | nil {stream : Bytes} : Answers [] stream stream
  | cons {a : Option Bytes} {answers : List (Option Bytes)} {stream s rest : Bytes} :
      Answer a stream s → Answers answers s rest → Answers (a :: answers) stream rest

/-- The input starts with the line of a command. -/
inductive Says : Command → Bytes → Bytes → Prop where
  | intro {line stream rest : Bytes} : Line .closed line stream rest →
      Says (.ofText (Utf8.toTextLossy line)) stream rest

section

variable {stream rest : Bytes} {answers answers' : List (Option Bytes)}

theorem Answer.suffix {a : Option Bytes} (h : Answer a stream rest) : rest <:+ stream := by
  cases h with
  | missing hline => exact hline.suffix
  | value hsized => exact (List.suffix_cons _ _).trans hsized.suffix

theorem Answers.suffix (h : Answers answers stream rest) : rest <:+ stream := by
  induction h with
  | nil => exact List.suffix_refl _
  | cons ha _ ih => exact ih.trans ha.suffix

theorem Answers.append {s : Bytes} (h : Answers answers stream s) (h' : Answers answers' s rest) :
    Answers (answers ++ answers') stream rest := by
  induction h with
  | nil => exact h'
  | cons ha _ ih => exact .cons ha (ih h')

/-- A command takes something of the input. -/
theorem Says.length_lt {command : Command} (h : Says command stream rest) :
    rest.length < stream.length := by
  obtain ⟨hline⟩ := h
  exact Reader.length_of_line_eq_ok (Reader.line_of (r := { rest := stream }) hline)

end

/-! ### What the filter says -/

/-- What the filter says about one object: the attributes that it asks for, those that it sets, and
the score. -/
structure Block where
  asked : List String
  told : List (String × Bytes) := []
  score : Option Int := none
  deriving DecidableEq, Repr

/-- The octets of a block. -/
def Block.octets (b : Block) : Bytes :=
  b.asked.flatMap getAttribute ++ b.told.flatMap (fun t => setAttribute t.1 t.2) ++
    b.score.elim [] result

/-- The attributes that an image is read out of, in the order in which they are asked for. -/
def questions : ImageSource → List String
  | .object => [dataAttribute]
  | .rgb => [rowsAttribute, columnsAttribute, pixelsAttribute]

/-- An object that is known by answers to questions, the next one first. A question behind the last
one is never answered. -/
def scripted : ObjectStore (List (Option Bytes)) where
  read _ answers :=
    match answers with
    | [] => ([], .error .hung)
    | a :: answers => (answers, .ok a)
  write _ _ answers := (answers, .ok ())

/-- A store that takes down what is written to it. -/
def notebook : ObjectStore (List (String × Bytes)) where
  read _ told := (told, .ok none)
  write name content told := (told ++ [(name, content)], .ok ())

/-! ### One object -/

/-- An object is scored by these answers to its questions. One without an image gets the score minus
one, and so does one for which the worker is gone. -/
inductive Scores (programs : Programs σ) (f : Filter σ) (s : System) :
    List (Option Bytes) → Block → Filter σ → System → Prop where
  /-- An attribute is missing or not as it should be. -/
  | unusable {answers : List (Option Bytes)} {name problem : String} :
      readImage f.imageSource scripted answers = ([], .error (.badAttribute name problem)) →
      Scores programs f s answers
        { asked := (questions f.imageSource).take answers.length, score := some sentinelScore } f s
  /-- The worker takes no request. -/
  | unsent {answers : List (Option Bytes)} {image : Bytes} {worker : Worker σ} {cause : String} :
      readImage f.imageSource scripted answers = ([], .ok image) →
      f.worker.send programs.worker image (Utf8.ofText f.script) =
        (worker, .error (.workerGone cause)) →
      Scores programs f s answers
        { asked := (questions f.imageSource).take answers.length, score := some sentinelScore }
        { f with worker := worker } s
  /-- The worker gives no reply, or not all of it. -/
  | unread {answers : List (Option Bytes)} {image : Bytes} {worker worker' : Worker σ}
      {told : List (String × Bytes)} {cause : String} :
      readImage f.imageSource scripted answers = ([], .ok image) →
      f.worker.send programs.worker image (Utf8.ofText f.script) = (worker, .ok ()) →
      worker.read programs.worker f.replyForm (keep notebook) [] =
        (worker', told, .error (.workerGone cause)) →
      Scores programs f s answers
        { asked := (questions f.imageSource).take answers.length
          told := told
          score := some sentinelScore }
        { f with worker := worker' } s
  /-- The worker replies; a malformed reply has a result too. -/
  | replied {answers : List (Option Bytes)} {image : Bytes} {worker worker' : Worker σ}
      {told : List (String × Bytes)} {outcome : Reply.Outcome} :
      readImage f.imageSource scripted answers = ([], .ok image) →
      f.worker.send programs.worker image (Utf8.ofText f.script) = (worker, .ok ()) →
      worker.read programs.worker f.replyForm (keep notebook) [] = (worker', told, .ok outcome) →
      Scores programs f s answers
        { asked := (questions f.imageSource).take answers.length
          told := told ++ [(resultAttribute, resultOctets outcome.value)]
          score := some (score outcome.value) }
        (afterReply programs outcome { f with worker := worker' } s).1
        (afterReply programs outcome { f with worker := worker' } s).2

/-! ### The whole dialogue -/

/-- Objects are scored, one after the other: the filter and the system before, the input, what the
filter says, and the filter, the system and the input that are left. -/
inductive Exchanges (programs : Programs σ) :
    Filter σ → System → Bytes → List Block → Filter σ → System → Bytes → Prop where
  | nil {f : Filter σ} {s : System} {stream : Bytes} : Exchanges programs f s stream [] f s stream
  | cons {f f₁ f₂ : Filter σ} {s s₁ s₂ : System} {stream stream' rest last : Bytes}
      {answers : List (Option Bytes)} {block : Block} {blocks : List Block} :
      Says .evaluate stream stream' → Answers answers stream' rest →
      Scores programs f s answers block f₁ s₁ → Exchanges programs f₁ s₁ rest blocks f₂ s₂ last →
      Exchanges programs f s stream (block :: blocks) f₂ s₂ last

/-- How a dialogue ends. -/
inductive Close where
  /-- The host closes its side where a command could be. -/
  | closed
  | shutdown
  /-- The host gives an unknown command. -/
  | unknown
  /-- The host gives no answer to a question. -/
  | broken
  /-- The filter waits for its worker for ever. -/
  | waiting
  deriving DecidableEq, Repr

/-- The end of a dialogue: what is left of the input, and the block of an object that gets no score,
if there is one. -/
inductive Closing (programs : Programs σ) (f : Filter σ) : Bytes → List Block → Close → Prop where
  | closed : Closing programs f [] [] .closed
  | shutdown {stream rest : Bytes} : Says .shutdown stream rest →
      Closing programs f stream [] .shutdown
  | unknown {text : String} {stream rest : Bytes} : Says (.other text) stream rest →
      Closing programs f stream [] .unknown
  /-- A question is asked that gets no answer. -/
  | broken {stream stream' rest : Bytes} {answers : List (Option Bytes)} :
      Says .evaluate stream stream' → Answers answers stream' rest →
      readImage f.imageSource scripted answers = ([], .error .hung) →
      (∀ a rest', ¬Answer a rest rest') →
      Closing programs f stream
        [{ asked := (questions f.imageSource).take (answers.length + 1) }] .broken
  /-- The worker neither replies nor ends. -/
  | waiting {stream stream' rest image : Bytes} {answers : List (Option Bytes)}
      {worker worker' : Worker σ} {told : List (String × Bytes)} :
      Says .evaluate stream stream' → Answers answers stream' rest →
      readImage f.imageSource scripted answers = ([], .ok image) →
      f.worker.send programs.worker image (Utf8.ofText f.script) = (worker, .ok ()) →
      worker.read programs.worker f.replyForm (keep notebook) [] = (worker', told, .error .hung) →
      Closing programs f stream
        [{ asked := (questions f.imageSource).take answers.length, told := told }] .waiting

variable {programs : Programs σ} {f f' : Filter σ} {s s' : System} {stream rest : Bytes}
  {blocks : List Block} {close : Close}

theorem Scores.imageSource_eq {answers : List (Option Bytes)} {block : Block}
    (h : Scores programs f s answers block f' s') : f'.imageSource = f.imageSource := by
  cases h with
  | unusable _ => rfl
  | unsent _ _ => rfl
  | unread _ _ _ => rfl
  | replied _ _ _ =>
    unfold afterReply
    split <;> rfl

theorem Exchanges.imageSource_eq (h : Exchanges programs f s stream blocks f' s' rest) :
    f'.imageSource = f.imageSource := by
  induction h with
  | nil => rfl
  | cons _ _ hscores _ ih => exact ih.trans hscores.imageSource_eq

/-- **No more is asked than the image's source needs**, and in its order. -/
theorem Exchanges.asked_in_order (h : Exchanges programs f s stream blocks f' s' rest) :
    ∀ b ∈ blocks, b.asked <+: questions f.imageSource := by
  induction h with
  | nil => simp
  | cons _ _ hscores _ ih =>
    intro b hb
    rcases List.mem_cons.mp hb with rfl | hb
    · cases hscores <;> exact List.take_prefix _ _
    · rw [← hscores.imageSource_eq]
      exact ih b hb

theorem Closing.asked_in_order (h : Closing programs f stream blocks close) :
    ∀ b ∈ blocks, b.asked <+: questions f.imageSource := by
  cases h <;> simp [List.take_prefix]

/-- **Every object gets its score.** -/
theorem Exchanges.scored (h : Exchanges programs f s stream blocks f' s' rest) :
    ∀ b ∈ blocks, b.score.isSome = true := by
  induction h with
  | nil => simp
  | cons _ _ hscores _ ih => exact List.forall_mem_cons.mpr ⟨by cases hscores <;> rfl, ih⟩

/-- Only the last object may get none, where the dialogue breaks off. -/
theorem Closing.unscored (h : Closing programs f stream blocks close) :
    blocks.length ≤ 1 ∧ (∀ b ∈ blocks, b.score = none) ∧
      (blocks ≠ [] → close = .broken ∨ close = .waiting) := by
  cases h <;> simp

/-- Between any two objects there is some filter, which goes on with the rest. -/
theorem Exchanges.split {before after : List Block}
    (h : Exchanges programs f s stream (before ++ after) f' s' rest) :
    ∃ f₁ s₁ stream₁, Exchanges programs f s stream before f₁ s₁ stream₁ ∧
      Exchanges programs f₁ s₁ stream₁ after f' s' rest := by
  induction before generalizing f s stream with
  | nil => exact ⟨f, s, stream, .nil, h⟩
  | cons block before ih =>
    obtain - | ⟨hcommand, hanswers, hscores, hrest⟩ := h
    obtain ⟨f₁, s₁, stream₁, hbefore, hafter⟩ := ih hrest
    exact ⟨f₁, s₁, stream₁, .cons hcommand hanswers hscores hbefore, hafter⟩

end ImageScoring.Host
