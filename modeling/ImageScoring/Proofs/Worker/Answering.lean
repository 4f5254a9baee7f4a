import ImageScoring.Proofs.Reply.Growth
import ImageScoring.Worker

/-!
# Workers that answer

`Answering program` says that a process of that program answers every request with a well-formed
reply. `Stands` follows what is unread of these replies from one exchange to the next: after a reply
that was read to its result nothing of it is left, but a reply whose attribute was refused stays
behind, and so does every reply that is read in another's place.
-/

namespace ImageScoring

open Reply

variable {σ ω : Type}

/-- A request whose frames are not too long. -/
def Request.Fits (image name : Bytes) : Prop :=
  image.length < Request.frameLimit ∧ name.length < Request.frameLimit

instance (image name : Bytes) : Decidable (Request.Fits image name) :=
  inferInstanceAs (Decidable (_ ∧ _))

/-- A program whose processes answer requests: while one waits for a request, it takes the next one,
adds one well-formed reply to its output, and waits again. It makes no difference to it whether its
parent reads or asks for its end. -/
structure Answering (program : Program σ) where
  waiting : Process σ → Prop
  /-- The reply to a request, an image and the name of a script. -/
  reply : Process σ → Bytes → Bytes → WellFormed
  waiting_read : ∀ {p : Process σ} (output : Bytes), waiting p → waiting { p with output := output }
  waiting_poll : ∀ {p : Process σ}, waiting p → waiting (p.poll program).1
  poll_output : ∀ {p : Process σ}, waiting p → (p.poll program).1.output = p.output
  send_eq : ∀ {p : Process σ} {image name : Bytes}, waiting p → Request.Fits image name →
    (p.send program (Request.encode image name)).2 = true
  answers : ∀ {p : Process σ} {image name : Bytes}, waiting p → Request.Fits image name →
    ((p.send program (Request.encode image name)).1.advance program).output =
      p.output ++ (reply p image name).octets
  waiting_again : ∀ {p : Process σ} {image name : Bytes}, waiting p → Request.Fits image name →
    waiting ((p.send program (Request.encode image name)).1.advance program)

/-- What stands unread before the reply to the next request. -/
inductive Phase where
  /-- Whole replies, none as long as all goes well. -/
  | whole (queue : List WellFormed)
  /-- The end of a reply that was broken off, and whole replies. -/
  | inside (reply : WellFormed) (queue : List WellFormed)

/-- What the reader of a worker's output has before it. -/
def Worker.pending (w : Worker σ) : Reader where
  rest := w.process.output
  ending := .silent
  skipBlank := w.skipBlank
  resync := w.resync

variable {program : Program σ}

/-- The worker waits, and that is what it has written and nobody has read. -/
inductive Stands (A : Answering program) : Phase → Worker σ → Prop where
  | whole {queue : List WellFormed} {w : Worker σ} : w.tornDown = false → A.waiting w.process →
      Ready (queue.flatMap WellFormed.octets) w.pending → Stands A (.whole queue) w
  | inside {reply : WellFormed} {queue : List WellFormed} {left : List Attribute}
      {payload s : Bytes} {w : Worker σ} : w.tornDown = false → A.waiting w.process →
      s <:+ reply.octets → Body .silent left payload s [newline] →
      w.pending = { rest := s ++ queue.flatMap WellFormed.octets, ending := .silent } →
      Stands A (.inside reply queue) w

/-- Another worker that waits and has written the same. -/
structure Kept (A : Answering program) (w w' : Worker σ) : Prop where
  tornDown : w'.tornDown = w.tornDown
  waiting : A.waiting w'.process
  pending : w'.pending = w.pending

theorem Kept.trans {A : Answering program} {w w' w'' : Worker σ} (h : Kept A w w')
    (h' : Kept A w' w'') : Kept A w w'' :=
  ⟨h'.tornDown.trans h.tornDown, h'.waiting, h'.pending.trans h.pending⟩

theorem Stands.kept {A : Answering program} {phase : Phase} {w w' : Worker σ}
    (h : Stands A phase w) (hk : Kept A w w') : Stands A phase w' := by
  cases h with
  | whole ht _ hr => exact .whole (hk.tornDown.trans ht) hk.waiting (hk.pending ▸ hr)
  | inside ht _ hs hb hp =>
    exact .inside (hk.tornDown.trans ht) hk.waiting hs hb (hk.pending.trans hp)

theorem Stands.tornDown {A : Answering program} {phase : Phase} {w : Worker σ}
    (h : Stands A phase w) : w.tornDown = false := by
  cases h <;> assumption

theorem Stands.waiting {A : Answering program} {phase : Phase} {w : Worker σ}
    (h : Stands A phase w) : A.waiting w.process := by
  cases h <;> assumption

namespace Worker

variable {A : Answering program} {w : Worker σ}

theorem kept_collect (h : A.waiting w.process) : Kept A w (w.collect program).1 :=
  ⟨rfl, A.waiting_poll h, by simp only [pending, collect, A.poll_output h]⟩

theorem kept_exitReason (h : A.waiting w.process) : Kept A w (w.exitReason program).1 := by
  obtain ⟨-, hreason⟩ | ⟨hreaped, hreason⟩ := exitReason_cases program w
  · rw [hreason]
    exact ⟨rfl, h, rfl⟩
  · rw [hreason]
    exact collectWithin_keeps (fun _ _ hk => hk.trans (kept_collect hk.waiting)) graceLooks hreaped
      ⟨rfl, h, rfl⟩

/-- Finding out why a worker failed changes nothing about what it has written. -/
theorem kept_gone (h : A.waiting w.process) (context detail : String) :
    Kept A w (w.gone program context detail).1 :=
  kept_exitReason h

/-! ### Sending -/

/-- The worker after it was sent a request. -/
def sent (program : Program σ) (image name : Bytes) (w : Worker σ) : Worker σ :=
  { w with process := (w.process.send program (Request.encode image name)).1 }

theorem send_of_fits {image name : Bytes} (ht : w.tornDown = false) (h : A.waiting w.process)
    (hf : Request.Fits image name) :
    w.send program image name = (w.sent program image name, .ok ()) := by
  have hfind : [image, name].find? (Request.frameLimit ≤ ·.length) = none := by
    simp [hf.1, hf.2]
  have hsend := A.send_eq h hf
  unfold send sendRequest sent
  rw [if_neg (Bool.eq_false_iff.mp ht), hfind]
  dsimp only
  cases hp : w.process.send program (Request.encode image name) with
  | mk p sent =>
    rw [hp] at hsend
    obtain rfl : sent = true := hsend
    rfl

theorem send_of_not_fits {image name : Bytes} (ht : w.tornDown = false) (h : A.waiting w.process)
    (hf : ¬Request.Fits image name) :
    ∃ w' err, w.send program image name = (w', .error err) ∧ Kept A w w' := by
  have hfind : ∃ content, [image, name].find? (Request.frameLimit ≤ ·.length) = some content := by
    rw [← Option.isSome_iff_exists, List.find?_isSome]
    by_contra hnone
    simp only [not_exists, not_and, decide_eq_true_eq, not_le] at hnone
    exact hf ⟨hnone image (by simp), hnone name (by simp)⟩
  obtain ⟨content, hfind⟩ := hfind
  let detail := (Request.Fault.tooLong content.length).message
  refine ⟨(w.gone program sending detail).1, (w.gone program sending detail).2, ?_, kept_gone h _ _⟩
  unfold send sendRequest
  rw [if_neg (Bool.eq_false_iff.mp ht), hfind]

/-! ### Reading -/

/-- The worker after it was sent a request and has answered it. -/
def answered (program : Program σ) (image name : Bytes) (w : Worker σ) : Worker σ :=
  { w with process := (w.process.send program (Request.encode image name)).1.advance program }

/-- The reader of a reply sees what was unread, and then the reply. -/
theorem reader_answered {image name : Bytes} (h : A.waiting w.process)
    (hf : Request.Fits image name) :
    ∃ e, (w.answered program image name).reader =
      w.pending.grow (A.reply w.process image name).octets e := by
  refine ⟨(w.answered program image name).reader.ending, ?_⟩
  rw [reader, answered, A.answers h hf]
  rfl

theorem waiting_after {image name : Bytes} (h : A.waiting w.process) (hf : Request.Fits image name)
    (r : Reader) : A.waiting ((w.answered program image name).after r).process :=
  A.waiting_read r.rest (A.waiting_again h hf)

/-- The worker after what its process does before a reply is read. -/
def heard (program : Program σ) (w : Worker σ) : Worker σ :=
  { w with process := w.process.advance program }

/-- A session that ends with an outcome tells it, and nothing else happens to the worker. -/
theorem read_of_outcome {sink : Sink ω} {store : ω} {outcome : Outcome} (ht : w.tornDown = false)
    {run : Run ω} (hrun : Session.run sink {} (w.heard program).reader store = run)
    (ha : run.answer = .ok outcome) :
    w.read program .framed sink store =
      ((w.heard program).after run.reader, run.store, .ok outcome) := by
  unfold read readReply
  rw [if_neg (Bool.eq_false_iff.mp ht)]
  dsimp only
  rw [heard] at hrun
  rw [hrun, ha]
  rfl

theorem read_of_ok {image name : Bytes} {sink : Sink ω} {store : ω} {outcome : Outcome}
    (ht : w.tornDown = false) {run : Run ω}
    (hrun : Session.run sink {} (w.answered program image name).reader store = run)
    (ha : run.answer = .ok outcome) :
    (w.sent program image name).read program .framed sink store =
      ((w.answered program image name).after run.reader, run.store, .ok outcome) :=
  read_of_outcome (w := w.sent program image name) ht hrun ha

/-- A session that is broken off makes the worker an error, and nothing more. -/
theorem read_of_error {image name : Bytes} {sink : Sink ω} {store : ω} {err : Error}
    (ht : w.tornDown = false) (h : A.waiting w.process) (hf : Request.Fits image name) {run : Run ω}
    (hrun : Session.run sink {} (w.answered program image name).reader store = run)
    (ha : run.answer = .error err) :
    ∃ w' err', (w.sent program image name).read program .framed sink store =
        (w', run.store, .error err') ∧
      Kept A ((w.answered program image name).after run.reader) w' := by
  have hw := waiting_after h hf run.reader
  unfold read readReply sent
  rw [if_neg (Bool.eq_false_iff.mp ht)]
  dsimp only
  rw [answered] at hrun
  rw [hrun, ha]
  cases err with
  | io detail => exact ⟨_, _, rfl, kept_gone hw reading detail⟩
  | _ => exact ⟨_, _, rfl, rfl, hw, rfl⟩

end Worker

/-! ### What stands unread after a session -/

/-- No line but the first of a reply reads `BEGIN`, in whatever part of it. -/
def Reply.WellFormed.Plain (reply : WellFormed) : Prop :=
  ∀ before l rest, reply.octets = before ++ newline :: (l ++ newline :: rest) → newline ∉ l →
    Reader.dropReturn l ≠ beginLine

theorem Reply.WellFormed.whole (reply : WellFormed) : Whole reply.octets := by
  obtain ⟨before, h⟩ := reply.framed.suffix
  exact .inr (by rw [← h, List.getLast?_concat])

theorem Reply.WellFormed.Plain.junk {reply : WellFormed} (h : reply.Plain) {s before : Bytes}
    (hs : reply.octets = before ++ newline :: s) : Junk s := by
  induction hlen : s.length using Nat.strong_induction_on generalizing s before with
  | _ length ih =>
    subst hlen
    by_cases hne : s = []
    · rw [hne]
      exact .nil
    · have hw : Whole s := reply.whole.suffix
        (hs ▸ (List.suffix_cons newline s).trans (List.suffix_append before _))
      obtain ⟨l, rest, hl, rfl, -⟩ := exists_line_of_whole hw hne
      have hlt : rest.length < (l ++ newline :: rest).length := by
        rw [List.length_append, List.length_cons]
        omega
      have hs' : reply.octets = (before ++ newline :: l) ++ newline :: rest := by
        rw [hs, List.append_assoc, List.cons_append]
      exact .line hl (h before l rest hs hl) (ih _ hlt hs' rfl)

section Sessions

variable {A : Answering program} {w : Worker σ} {image name : Bytes} {sink : Sink ω} {store : ω}

/-- The reply to a request stands behind what was unread. -/
theorem Stands.ready_answered {queue rest : List WellFormed} {reply : WellFormed}
    (h : Stands A (.whole queue) w) (hf : Request.Fits image name)
    (hq : queue ++ [A.reply w.process image name] = reply :: rest) :
    Ready (reply.octets ++ rest.flatMap WellFormed.octets)
      (w.answered program image name).reader := by
  obtain ⟨e, hreader⟩ := Worker.reader_answered h.waiting hf
  cases h with
  | whole _ _ hr =>
    have hgrow := hr.grow (A.reply w.process image name).octets e
    rw [← hreader, ← List.flatMap_singleton WellFormed.octets, ← List.flatMap_append, hq,
      List.flatMap_cons] at hgrow
    exact hgrow

/-- If the sink accepts the attributes of the first unread reply, the session tells that reply. -/
theorem Stands.run_of_accepted {queue rest : List WellFormed} {reply : WellFormed}
    (h : Stands A (.whole queue) w) (hf : Request.Fits image name)
    (hq : queue ++ [A.reply w.process image name] = reply :: rest) {store' : ω}
    (ho : offer sink store reply.attributes = (store', .ok ())) {run : Run ω}
    (hrun : Session.run sink {} (w.answered program image name).reader store = run) :
    run.answer = .ok reply.outcome ∧
      Stands A (.whole rest) ((w.answered program image name).after run.reader) := by
  rw [Session.run_of_accepted reply (h.ready_answered hf hq) ho] at hrun
  subst hrun
  refine ⟨rfl, .whole h.tornDown (Worker.waiting_after h.waiting hf _) ?_⟩
  exact Session.ready_behind_result

/-- If the sink refuses one of these attributes, the session is broken off, and the rest of that
reply stays unread. -/
theorem Stands.run_of_refused {queue rest : List WellFormed} {reply : WellFormed}
    (h : Stands A (.whole queue) w) (hf : Request.Fits image name)
    (hq : queue ++ [A.reply w.process image name] = reply :: rest) {store' : ω} {err : Error}
    {left : List Attribute} (ho : offer sink store reply.attributes = (store', .error (err, left)))
    {run : Run ω} (hrun : Session.run sink {} (w.answered program image name).reader store = run) :
    run.answer = .error err ∧
      Stands A (.inside reply rest) ((w.answered program image name).after run.reader) := by
  obtain ⟨s, taken, hs, hb, hr⟩ := Session.run_of_refused reply (h.ready_answered hf hq) ho
  rw [hr] at hrun
  subst hrun
  exact ⟨rfl, .inside h.tornDown (Worker.waiting_after h.waiting hf _) hs hb rfl⟩

/-- What is left of a reply that was broken off is taken for a malformed reply. The session behind
that one is ready for the next whole reply. -/
theorem Stands.run_inside {queue : List WellFormed} {reply : WellFormed}
    (h : Stands A (.inside reply queue) w) (hf : Request.Fits image name) {run : Run ω}
    (hrun : Session.run sink {} (w.answered program image name).reader store = run) :
    (∃ error, run.answer = .ok (.framing error)) ∧
      (reply.Plain → Stands A (.whole (queue ++ [A.reply w.process image name]))
        ((w.answered program image name).after run.reader)) := by
  obtain ⟨e, hreader⟩ := Worker.reader_answered h.waiting hf
  have ht := h.tornDown
  have hw := h.waiting
  cases h with
  | inside _ _ hs hb hp =>
    obtain ⟨l, s', hl, rfl, hr⟩ := Session.run_inside sink hb
      (queue.flatMap WellFormed.octets ++ (A.reply w.process image name).octets) e store
    rw [hreader, hp, Reader.grow] at hrun
    dsimp only at hrun
    rw [List.append_assoc, hr] at hrun
    subst hrun
    refine ⟨⟨_, rfl⟩, fun hplain => .whole ht (Worker.waiting_after hw hf _) ?_⟩
    obtain ⟨before, hbefore⟩ := hs
    have hoctets : reply.octets = (before ++ l) ++ newline :: s' := by
      rw [← hbefore, List.append_assoc]
    have hj : Junk s' := hplain.junk hoctets
    rw [List.flatMap_append, List.flatMap_singleton]
    exact .lost hj

end Sessions

/-! ### Workers for every sequence of replies -/

/-- The program that answers one request after another with the next of some replies. -/
def Program.replying (replies : Nat → WellFormed) : Program Nat := fun k unread =>
  if unread.isEmpty then ([], k)
  else ([.consume unread.length, .emit (replies k).octets], k + 1)

namespace Answering

/-- The process has taken all that it was sent, and goes on. -/
def Idle (p : Process Nat) : Prop :=
  p.unread = [] ∧ p.inputOpen = true ∧ p.outputOpen = true ∧ p.ended = none

variable {replies : Nat → WellFormed} {p : Process Nat}

theorem advance_of_idle (h : Idle p) : p.advance (Program.replying replies) = p := by
  obtain ⟨state, unread, inputOpen, output, outputOpen, ended, calls⟩ := p
  obtain ⟨rfl, rfl, rfl, rfl⟩ := h
  rfl

theorem encode_ne_nil (image name : Bytes) : Request.encode image name ≠ [] := by
  intro h
  have hl := congrArg List.length h
  simp [Request.encode, Request.frame, Bytes.bigEndian, Bytes.littleEndian] at hl

/-- What a request makes of an idle process. -/
theorem send_of_idle (h : Idle p) (image name : Bytes) :
    p.send (Program.replying replies) (Request.encode image name) =
      ({ p with state := p.state + 1, output := p.output ++ (replies p.state).octets }, true) := by
  rw [Process.send, advance_of_idle h]
  obtain ⟨state, unread, inputOpen, output, outputOpen, ended, calls⟩ := p
  obtain ⟨rfl, rfl, rfl, rfl⟩ := h
  have hne : (Request.encode image name).isEmpty = false :=
    List.isEmpty_eq_false_iff.mpr (encode_ne_nil image name)
  simp [Process.advance, Program.replying, hne, Process.perform]

/-- Whatever the replies, there is a worker that gives them. -/
def replying (replies : Nat → WellFormed) : Answering (Program.replying replies) where
  waiting := Idle
  reply p _ _ := replies p.state
  waiting_read _ h := h
  waiting_poll h := by
    rw [Process.poll, advance_of_idle h]
    exact h
  poll_output h := by rw [Process.poll, advance_of_idle h]
  send_eq h _ := by rw [send_of_idle h]
  answers h _ := by
    rw [send_of_idle h, advance_of_idle (by exact h)]
  waiting_again h _ := by
    rw [send_of_idle h, advance_of_idle (by exact h)]
    exact h

end Answering

end ImageScoring
