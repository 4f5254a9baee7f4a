import ImageScoring.Filter
import ImageScoring.Proofs.Reply.Acceptance
import ImageScoring.Proofs.Worker.Release

/-!
# Where attributes are stored

What a session makes of a reply does not depend on where its attributes are stored. If a sink does
to an image of a store what another one does to the store itself, then a run with the one is the
image of a run with the other (`Session.run_carried`), and so it is with reading a worker's reply
(`read_carried`).
-/

namespace ImageScoring

open Reply

variable {σ ω ω' : Type} {g : ω → ω'} {sink : Sink ω} {sink' : Sink ω'}

/-- The second sink does to the image of a store what the first one does to the store. -/
def Reply.Sink.Carried (g : ω → ω') (sink : Sink ω) (sink' : Sink ω') : Prop :=
  ∀ store a, sink' (g store) a = (g (sink store a).1, (sink store a).2)

/-- The sink refuses no attribute. -/
def Reply.Sink.Accepts (sink : Sink ω) : Prop :=
  ∀ store a, (sink store a).2 = .ok ()

/-- The sink may refuse an attribute with that error. -/
def Reply.Sink.Refuses (sink : Sink ω) (e : Error) : Prop :=
  ∃ store a, (sink store a).2 = .error e

theorem Reply.Sink.Accepts.not_refuses (h : sink.Accepts) (e : Error) : ¬sink.Refuses e := by
  rintro ⟨store, a, hrefused⟩
  rw [h store a] at hrefused
  cases hrefused

namespace Reply

/-- The run with the image of its store. -/
def Run.map (g : ω → ω') (run : Run ω) : Run ω' :=
  ⟨run.answer, run.session, run.reader, g run.store⟩

namespace Session

/-! ### Stores and their images -/

/-- What follows the records that have been read is the same, by induction on how much is left. -/
theorem records_carried (h : Sink.Carried g sink sink') (count : Nat) (r : Reader) (store : ω) :
    records sink' count r (g store) = (records sink count r store).map g := by
  induction hlength : r.rest.length using Nat.strong_induction_on generalizing count r store with
  | _ length ih =>
    rw [records_eq, records_eq]
    rcases hrecord : r.record with fault | ⟨record, r'⟩
    · rfl
    · cases record with
      | opening => rfl
      | malformed error => rfl
      | result value => rfl
      | attr a =>
        dsimp only
        rw [h store a]
        rcases hsink : sink store a with ⟨store', error | ⟨⟩⟩
        · rfl
        · have hless := Reader.length_of_record_eq_attr hrecord
          exact ih r'.rest.length (hlength ▸ hless) _ _ _ rfl

theorem run_carried (h : Sink.Carried g sink sink') (s : Session) (r : Reader) (store : ω) :
    run sink' s r (g store) = (run sink s r store).map g := by
  unfold run
  split
  · rfl
  · rfl
  · exact records_carried h _ _ _
  · split
    · dsimp only
      split
      · rfl
      · exact records_carried h _ _ _
    · split
      · rfl
      · exact records_carried h _ _ _
      · rfl

/-! ### What runs fail with -/

theorem records_fails (sink : Sink ω) (count : Nat) (r : Reader) (store : ω) {e : Error}
    (hanswer : (records sink count r store).answer = .error e) :
    (∃ fault, e = faultError fault) ∨ sink.Refuses e := by
  induction hlength : r.rest.length using Nat.strong_induction_on generalizing count r store with
  | _ length ih =>
    rw [records_eq] at hanswer
    rcases hrecord : r.record with fault | ⟨record, r'⟩
    · rw [hrecord] at hanswer
      cases hanswer
      exact .inl ⟨fault, rfl⟩
    · rw [hrecord] at hanswer
      cases record with
      | opening => cases hanswer
      | malformed error => cases hanswer
      | result value => cases hanswer
      | attr a =>
        dsimp only at hanswer
        rcases hsink : sink store a with ⟨store', error | ⟨⟩⟩
        · rw [hsink] at hanswer
          cases hanswer
          exact .inr ⟨store, a, by rw [hsink]⟩
        · rw [hsink] at hanswer
          have hless := Reader.length_of_record_eq_attr hrecord
          exact ih r'.rest.length (hlength ▸ hless) _ _ _ hanswer rfl

/-- A new session fails only where the stream or its sink does. -/
theorem run_fails (sink : Sink ω) (r : Reader) (store : ω) {e : Error}
    (hanswer : (run sink {} r store).answer = .error e) :
    (∃ fault, e = faultError fault) ∨ sink.Refuses e := by
  unfold run at hanswer
  dsimp only at hanswer
  split at hanswer
  · split at hanswer
    · next fault _ =>
      cases hanswer
      exact .inl ⟨fault, rfl⟩
    · exact records_fails _ _ _ _ hanswer
  · split at hanswer
    · next fault _ =>
      cases hanswer
      exact .inl ⟨fault, rfl⟩
    · exact records_fails _ _ _ _ hanswer
    · cases hanswer

end Session

end Reply

namespace Worker

theorem readReply_carried (h : Sink.Carried g sink sink') (form : ReplyForm) (r : Reader)
    (store : ω) : readReply form sink' r (g store) = (readReply form sink r store).map g := by
  cases form with
  | framed => exact Session.run_carried h {} r store
  | bare =>
    unfold readReply
    dsimp only
    split <;> rfl

/-- **Reading a reply does the same wherever its attributes are stored.** -/
theorem read_carried (h : Sink.Carried g sink sink') (program : Program σ) (form : ReplyForm)
    (w : Worker σ) (store : ω) :
    w.read program form sink' (g store) =
      ((w.read program form sink store).1, g (w.read program form sink store).2.1,
        (w.read program form sink store).2.2) := by
  unfold read
  split
  · rfl
  · dsimp only
    rw [readReply_carried h]
    dsimp only [Run.map]
    split <;> rfl

theorem readReply_fails (sink : Sink ω) {form : ReplyForm} {r : Reader} {store : ω} {e : Error}
    (hanswer : (readReply form sink r store).answer = .error e) :
    (∃ fault, e = faultError fault) ∨ sink.Refuses e := by
  cases form with
  | framed => exact Session.run_fails sink r store hanswer
  | bare =>
    unfold readReply at hanswer
    dsimp only at hanswer
    split at hanswer
    · cases hanswer
    · next fault _ =>
      cases hanswer
      exact .inl ⟨fault, rfl⟩

/-- **A reply that cannot be read means that the worker is gone**, if it is not waited for. -/
theorem read_fails (h : sink.Accepts) {program : Program σ} {form : ReplyForm} {w : Worker σ}
    {store : ω} {e : Error} (hanswer : (w.read program form sink store).2.2 = .error e) :
    e = .hung ∨ ∃ cause, e = .workerGone cause := by
  unfold read at hanswer
  split at hanswer
  · cases hanswer
    exact .inr ⟨_, rfl⟩
  · dsimp only at hanswer
    split at hanswer
    · cases hanswer
      exact .inr ⟨_, rfl⟩
    · next hno =>
      obtain ⟨fault, rfl⟩ := (readReply_fails sink hanswer).resolve_right (h.not_refuses e)
      cases fault with
      | hung => exact .inl rfl
      | closedInRecord => exact absurd hanswer (hno _)
      | closedInPayload received expected => exact absurd hanswer (hno _)
      | closedAtTerminator => exact absurd hanswer (hno _)

/-- A request that cannot be sent means that the worker is gone. -/
theorem send_fails {program : Program σ} {image name : Bytes} {w : Worker σ} {e : Error}
    (hanswer : (w.send program image name).2 = .error e) : ∃ cause, e = .workerGone cause := by
  unfold send at hanswer
  split at hanswer
  · cases hanswer
    exact ⟨_, rfl⟩
  · split at hanswer
    · cases hanswer
    · cases hanswer
      exact ⟨_, rfl⟩

end Worker

end ImageScoring
