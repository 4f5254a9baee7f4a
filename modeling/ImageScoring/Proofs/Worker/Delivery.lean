import ImageScoring.Proofs.Reply.Recovery
import ImageScoring.Proofs.Worker.Answering
import ImageScoring.Proofs.Worker.Storing

/-!
# What a reply hands over

Which attributes a reply hands over, and how it ends, does not depend on where they go. `listed` is
the run that keeps a list of them, and what a run with any other sink comes to is told by offering
that list to the sink (`Session.run_offered`): if the sink takes them all, the run ends as the reply
does, and else with the sink's error.
-/

namespace ImageScoring

open Reply

variable {σ ω : Type} (sink : Sink ω)

namespace Reply

/-- The attributes that a run has handed over, if it has kept a list of them, last first. -/
def Run.handed (list : Run (List Attribute)) : List Attribute :=
  list.store.reverse

/-- What a run comes to with another sink, which is offered what this run has handed over. -/
def Run.offered (sink : Sink ω) (store : ω) (list : Run (List Attribute)) :
    ω × Except Error Outcome :=
  match offer sink store list.handed with
  | (store, .ok ()) => (store, list.answer)
  | (store, .error (e, _)) => (store, .error e)

/-- The attribute that a run has kept first is offered first. -/
theorem Run.offered_map (store : ω) (a : Attribute) (list : Run (List Attribute)) :
    (list.map (· ++ [a])).offered sink store =
      match sink store a with
      | (store, .ok ()) => list.offered sink store
      | (store, .error e) => (store, .error e) := by
  unfold offered handed
  rw [map, List.reverse_append, List.reverse_singleton, List.singleton_append, offer]
  rcases sink store a with ⟨store', e | ⟨⟩⟩
  · rfl
  · rfl

theorem Run.offered_of_taken {store store' : ω} {list : Run (List Attribute)}
    (h : offer sink store list.handed = (store', .ok ())) :
    list.offered sink store = (store', list.answer) := by
  rw [offered, h]

theorem Run.offered_of_refused {store store' : ω} {e : Error} {left : List Attribute}
    {list : Run (List Attribute)}
    (h : offer sink store list.handed = (store', .error (e, left))) :
    list.offered sink store = (store', .error e) := by
  rw [offered, h]

/-- What stands in the list from the beginning stays at its end. -/
theorem carried_collect (a : Attribute) :
    Sink.Carried (· ++ [a]) (accepting collect) (accepting collect) := fun _ _ => rfl

namespace Session

theorem records_offered (count : Nat) (r : Reader) (store : ω) :
    ((records sink count r store).store, (records sink count r store).answer) =
      (records (accepting collect) count r []).offered sink store := by
  induction hlength : r.rest.length using Nat.strong_induction_on generalizing count r store with
  | _ length ih =>
    rw [records_eq, records_eq]
    rcases hrecord : r.record with fault | ⟨record, r'⟩
    · rfl
    · cases record with
      | opening => rfl
      | malformed error => rfl
      | result value => rfl
      | attr a =>
        have hlist : records (accepting collect) (count + 1) r' (collect [] a) =
            (records (accepting collect) (count + 1) r' []).map (· ++ [a]) :=
          records_carried (carried_collect a) (count + 1) r' []
        change _ = (records (accepting collect) (count + 1) r' (collect [] a)).offered sink store
        rw [hlist, Run.offered_map]
        dsimp only
        rcases sink store a with ⟨store', e | ⟨⟩⟩
        · rfl
        · have hless := Reader.length_of_record_eq_attr hrecord
          exact ih r'.rest.length (hlength ▸ hless) _ _ _ rfl

/-- **A run with any sink does what offering it the attributes of the reply does.** -/
theorem run_offered (s : Session) (r : Reader) (store : ω) :
    ((run sink s r store).store, (run sink s r store).answer) =
      (run (accepting collect) s r []).offered sink store := by
  unfold run
  split
  · rfl
  · rfl
  · exact records_offered sink _ _ _
  · split
    · dsimp only
      split
      · rfl
      · exact records_offered sink _ _ _
    · split
      · rfl
      · exact records_offered sink _ _ _
      · rfl

end Session

end Reply

namespace Worker

/-- What a reply hands over and how it ends: the run that keeps a list of its attributes. -/
def listed (program : Program σ) (form : ReplyForm) (w : Worker σ) : Run (List Attribute) :=
  readReply form (accepting Reply.collect) (w.heard program).reader []

theorem readReply_offered (form : ReplyForm) (r : Reader) (store : ω) :
    ((readReply form sink r store).store, (readReply form sink r store).answer) =
      (readReply form (accepting Reply.collect) r []).offered sink store := by
  cases form with
  | framed => exact Session.run_offered sink {} r store
  | bare =>
    unfold readReply
    dsimp only
    split <;> rfl

end Worker

end ImageScoring
