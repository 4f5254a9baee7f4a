import ImageScoring.Proofs.Worker.Collection
import ImageScoring.Proofs.Worker.Delivery

/-!
# Refused attributes

Reading a reply can fail because of the worker, or because a sink refuses an attribute, and both
come back as an error. A sink's error is passed on as it is, and the worker's process is not turned
to, unless it is an I/O error: that one is taken for a fault of the worker's pipe
(`refusal_passed_on_iff`).
-/

namespace ImageScoring

open Reply

variable {σ ω : Type} {program : Program σ}

namespace Worker

variable {w : Worker σ} {form : ReplyForm} {sink : Sink ω} {store : ω}

/-! ### What reading a reply comes to -/

/-- An I/O error, the stream's or the sink's, makes the worker an error, and every other answer is
passed on. -/
theorem read_of_offered (hstands : w.tornDown = false) {store' : ω}
    {answer : Except Error Outcome}
    (hoffered : (w.listed program form).offered sink store = (store', answer)) :
    ∃ r, w.read program form sink store =
      match answer with
      | .error (.io detail) =>
        match ((w.heard program).after r).gone program reading detail with
        | (w, e) => (w, store', .error e)
      | answer => ((w.heard program).after r, store', answer) := by
  have hrun := readReply_offered sink form (w.heard program).reader store
  rw [← listed, hoffered, Prod.mk.injEq] at hrun
  obtain ⟨rfl, rfl⟩ := hrun
  refine ⟨(readReply form sink (w.heard program).reader store).reader, ?_⟩
  unfold read
  rw [if_neg (Bool.eq_false_iff.mp hstands)]
  rfl

theorem read_of_passed (hstands : w.tornDown = false) {store' : ω} {answer : Except Error Outcome}
    (hoffered : (w.listed program form).offered sink store = (store', answer))
    (hno : ∀ detail, answer ≠ .error (.io detail)) :
    ∃ r, w.read program form sink store = ((w.heard program).after r, store', answer) := by
  obtain ⟨r, hread⟩ := read_of_offered hstands hoffered
  refine ⟨r, hread.trans ?_⟩
  split
  · next detail => exact absurd rfl (hno detail)
  · rfl

/-- Reading leaves the process alone before it is known to fail. -/
theorem calls_heard (w : Worker σ) (program : Program σ) :
    (w.heard program).process.calls = w.process.calls :=
  (w.process.onward_advance program).calls

/-- A worker that failed is asked how it ended, unless that is known to have been collected. -/
theorem polled_gone (hreaped : w.reaped = false) (context detail : String) :
    ∃ ended later, (w.gone program context detail).1.process.calls =
      w.process.calls ++ .poll ended :: later := by
  have hfirst : (w.collect program).1.process.calls = w.process.calls ++
      [.poll (w.process.advance program).ended.isSome] := by
    rw [← (w.process.onward_advance program).calls]
    rfl
  have hlook : ∀ w₁ : Worker σ, w₁.reaped = false →
      (∃ ended later, w₁.process.calls = w.process.calls ++ .poll ended :: later) →
      ∃ ended later, (w₁.collect program).1.process.calls =
        w.process.calls ++ .poll ended :: later := by
    rintro w₁ - ⟨ended, later, hcalls⟩
    refine ⟨ended, later ++ [.poll (w₁.process.advance program).ended.isSome], ?_⟩
    rw [← List.cons_append, ← List.append_assoc, ← hcalls,
      ← (w₁.process.onward_advance program).calls]
    rfl
  have hasked : ∃ ended later, (w.collectWithin program graceLooks).1.process.calls =
      w.process.calls ++ .poll ended :: later := by
    rw [graceLooks, collectWithin]
    have hreaped₁ := reaped_collect program w
    split
    · next w₁ ended hcollect =>
      rw [hcollect] at hfirst
      exact ⟨_, [], hfirst⟩
    · next w₁ hcollect =>
      rw [hcollect] at hfirst hreaped₁
      exact collectWithin_keeps hlook 20 hreaped₁ ⟨_, [], hfirst⟩
  obtain ⟨hknown, -⟩ | ⟨-, hreason⟩ := exitReason_cases program w
  · rw [hreaped] at hknown
    cases hknown
  · unfold gone
    rw [hreason]
    exact hasked

/-- A bare reply hands nothing over. -/
theorem listed_bare (w : Worker σ) (program : Program σ) :
    (w.listed program .bare).handed = [] := by
  unfold listed readReply Run.handed
  dsimp only
  split <;> rfl

/-- The fault of a stream that a reply meets. -/
theorem fault_of_listed {detail : String}
    (h : (w.listed program form).answer = .error (.io detail)) :
    ∃ fault : ReadFault, fault ≠ .hung ∧ detail = fault.message := by
  rcases readReply_fails _ h with ⟨fault, hfault⟩ | ⟨taken, a, hrefused⟩
  · exact ⟨fault, faultError_eq_io_iff.mp hfault.symm⟩
  · cases hrefused

/-- A sink's I/O error is told as the end of the worker. -/
theorem read_of_refused_io (hstands : w.tornDown = false) {store' : ω} {detail : String}
    {left : List Attribute} (hrefused : offer sink store (w.listed program form).handed =
      (store', .error (.io detail, left))) :
    (∃ reason, (w.read program form sink store).2 =
      (store', .error (.workerGone (WorkerFailure.text ⟨reason, some reading, some detail⟩)))) ∧
    (w.reaped = false → ∃ ended later, (w.read program form sink store).1.process.calls =
      w.process.calls ++ .poll ended :: later) := by
  obtain ⟨r, hread⟩ := read_of_offered hstands (Run.offered_of_refused sink hrefused)
  rw [hread, ← w.calls_heard program]
  exact ⟨⟨_, rfl⟩, fun hreaped =>
    polled_gone (w := (w.heard program).after r) hreaped reading detail⟩

/-- A worker that stands is said to be gone because of its stream, or by the sink. -/
theorem workerGone_of_read (hstands : w.tornDown = false) {cause : String}
    (hgone : (w.read program form sink store).2.2 = .error (.workerGone cause)) :
    (∃ fault : ReadFault, fault ≠ .hung ∧
        (w.listed program form).answer = .error (.io fault.message) ∧
        (offer sink store (w.listed program form).handed).2 = .ok ()) ∨
      ∃ e left, (offer sink store (w.listed program form).handed).2 = .error (e, left) ∧
        (e = .workerGone cause ∨ ∃ detail, e = .io detail) := by
  rcases hoffer : offer sink store (w.listed program form).handed with
    ⟨store', ⟨e, left⟩ | ⟨⟩⟩
  · by_cases hio : ∃ detail, e = .io detail
    · exact .inr ⟨e, left, rfl, .inr hio⟩
    · obtain ⟨r, hread⟩ := read_of_passed hstands (Run.offered_of_refused sink hoffer)
        (fun detail he => hio ⟨detail, Except.error.inj he⟩)
      rw [hread] at hgone
      exact .inr ⟨e, left, rfl, .inl (Except.error.inj hgone)⟩
  · have hoffered := Run.offered_of_taken sink hoffer
    have hio : ∃ detail, (w.listed program form).answer = .error (.io detail) := by
      by_contra hno
      obtain ⟨r, hread⟩ := read_of_passed hstands hoffered
        (fun detail he => hno ⟨detail, he⟩)
      rw [hread] at hgone
      rcases readReply_fails _ hgone with ⟨fault, hfault⟩ | ⟨taken, a, hrefused⟩
      · cases fault <;> cases hfault
      · cases hrefused
    obtain ⟨detail, hdetail⟩ := hio
    obtain ⟨fault, hfault, rfl⟩ := fault_of_listed hdetail
    exact .inl ⟨fault, hfault, hdetail, rfl⟩

/-- **A refusal is passed on unless it is an I/O error.** A worker that stands is read, and the sink
refuses an attribute that the reply hands over. Exactly if its error is no I/O error, that error is
the answer, and the worker's process has neither been asked for its end nor given up. An I/O error
is taken for a fault of the pipe: the worker is said to be gone, and its process is asked. So a
worker is only said to be gone if it was torn down, if reading its output failed or ended, or if the
sink said so itself or refused with an I/O error. A bare reply hands nothing over. -/
theorem refusal_passed_on_iff (program : Program σ) (form : ReplyForm) (sink : Sink ω)
    (w : Worker σ) (store : ω) :
    let offered := offer sink store (w.listed program form).handed
    let read := w.read program form sink store
    (w.tornDown = false → ∀ store' e left, offered = (store', .error (e, left)) →
      (read.2 = (store', .error e) ∧ read.1.process.calls = w.process.calls ∧
          read.1.reaped = w.reaped ↔ ∀ detail, e ≠ .io detail) ∧
      ∀ detail, e = .io detail →
        (∃ reason, read.2 = (store',
          .error (.workerGone (WorkerFailure.text ⟨reason, some reading, some detail⟩)))) ∧
        (w.reaped = false → ∃ ended later,
          read.1.process.calls = w.process.calls ++ .poll ended :: later)) ∧
    (∀ cause, read.2.2 = .error (.workerGone cause) →
      w.tornDown = true ∨
      (∃ fault : ReadFault, fault ≠ .hung ∧
        (w.listed program form).answer = .error (.io fault.message) ∧ offered.2 = .ok ()) ∨
      ∃ e left, offered.2 = .error (e, left) ∧
        (e = .workerGone cause ∨ ∃ detail, e = .io detail)) ∧
    (form = .bare → (w.listed program form).handed = []) := by
  refine ⟨fun hstands store' e left hrefused => ⟨⟨?_, fun hno => ?_⟩, ?_⟩,
    fun cause hgone => ?_, ?_⟩
  · rintro ⟨hpassed, -, -⟩ detail rfl
    obtain ⟨reason, hblamed⟩ := (read_of_refused_io hstands hrefused).1
    rw [hblamed] at hpassed
    simp at hpassed
  · obtain ⟨r, hread⟩ := read_of_passed hstands (Run.offered_of_refused sink hrefused)
      (fun detail he => hno detail (Except.error.inj he))
    rw [hread]
    exact ⟨rfl, w.calls_heard program, rfl⟩
  · rintro detail rfl
    exact read_of_refused_io hstands hrefused
  · rcases hdown : w.tornDown with _ | _
    · exact .inr (workerGone_of_read hdown hgone)
    · exact .inl rfl
  · rintro rfl
    exact listed_bare w program

/-! ### Refused in two ways -/

/-- A worker that has written a reply with one attribute, and does nothing any more. -/
def restingWorker : Worker Unit where
  process := { state := (), output := ascii "BEGIN\nATTR\nK\n1\nk\nV\n1\nv\nRESULT\n1\n7\n" }
  lease := none
  workspace := none

def restingProgram : Program Unit := fun _ _ => ([], ())

/-- A sink that refuses every attribute with that error. -/
def refusing (e : Error) : Sink Unit := fun store _ => (store, .error e)

theorem listed_restingWorker :
    (restingWorker.listed restingProgram .framed).handed = [⟨ascii "k", ascii "v"⟩] := by
  decide +kernel

/-- An error of the store is passed on, and the worker is left alone. -/
theorem host_refusal_passed_on :
    restingWorker.tornDown = false ∧
    offer (refusing (.host "full")) ()
        (restingWorker.listed restingProgram .framed).handed =
      ((), .error (.host "full", [])) ∧
    (restingWorker.read restingProgram .framed (refusing (.host "full")) ()).2 =
      ((), .error (.host "full")) ∧
    (restingWorker.read restingProgram .framed (refusing (.host "full")) ()).1.process.calls =
      [] := by
  have hrefused : offer (refusing (.host "full")) ()
      (restingWorker.listed restingProgram .framed).handed =
        ((), .error (.host "full", [])) := by
    rw [listed_restingWorker]
    rfl
  obtain ⟨hpassed, hcalls, -⟩ := ((refusal_passed_on_iff restingProgram .framed
    (refusing (.host "full")) restingWorker ()).1 rfl _ _ _ hrefused).1.mpr fun detail => by simp
  exact ⟨rfl, hrefused, hpassed, hcalls⟩

/-- An I/O error of the store is taken for the worker's: it is said to be gone, and asked for its
end until that would have been told. -/
theorem io_refusal_blamed :
    restingWorker.tornDown = false ∧
    offer (refusing (.io "disk full")) ()
        (restingWorker.listed restingProgram .framed).handed =
      ((), .error (.io "disk full", [])) ∧
    (restingWorker.read restingProgram .framed (refusing (.io "disk full")) ()).2 =
      ((), .error (.workerGone
        "worker is still running while reading the reply: disk full")) ∧
    (restingWorker.read restingProgram .framed (refusing (.io "disk full")) ()).1.process.calls =
      List.replicate 21 (.poll false) := by
  refine ⟨rfl, ?_, ?_, ?_⟩
  · rw [listed_restingWorker]
    rfl
  · decide +kernel
  · decide +kernel

end Worker

end ImageScoring
