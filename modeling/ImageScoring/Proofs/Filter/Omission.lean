import ImageScoring.Proofs.Filter.Teardown
import Mathlib.Logic.Function.Basic

/-!
# Evaluations without an image

An evaluation whose image cannot be had ends before anything is done: it fails, nothing is written
and nothing is sent, and the filter is what it was (`evaluate_of_unread`). A request is sent if the
image can be had and the worker takes it (`outgoing_request?`). So it makes no difference to other
evaluations whether one without an image takes place. `visitAll` evaluates some objects, any of them
any number of times; if visits that get no image are left out (`Spared`), nothing changes for the
others (`unread_leaves_no_trace`).
-/

namespace ImageScoring

open Reply

variable {σ ω ι : Type}

/-- A request that is taken is sent to the process, whole. -/
theorem Worker.process_of_send {program : Program σ} {w w' : Worker σ} {image name : Bytes}
    (h : w.send program image name = (w', .ok ())) :
    w.process.send program (Request.encode image name) = (w'.process, true) := by
  rw [Worker.send] at h
  split at h
  · cases h
  · split at h
    · next process hrequest =>
      obtain rfl := (Prod.mk.inj h).1
      rw [Worker.sendRequest] at hrequest
      split at hrequest
      · cases hrequest
      · split at hrequest
        · next hsent =>
          obtain rfl := (Prod.mk.inj hrequest).1
          exact hsent
        · cases hrequest
    · cases h

namespace Filter

/-- An evaluation of one of some objects, with what its attributes are kept in. -/
structure Visit (ι ω : Type) where
  object : ι
  store : ObjectStore ω

/-- What is seen of an evaluation: its answer, the object that it leaves, and the request that it
has sent. -/
structure Seen (ω : Type) where
  answer : Except Error Int
  object : ω
  request : Option Bytes

/-- What evaluations leave. -/
structure Visited (σ ω : Type) where
  seen : List (Seen ω)
  filter : Filter σ
  system : System

/-- The request that an evaluation sends, if it sends one. -/
def request? (programs : Programs σ) (store : ObjectStore ω) (object : ω) (f : Filter σ) :
    Option Bytes :=
  match readImage f.imageSource store object with
  | (_, .error _) => none
  | (_, .ok image) =>
    match f.worker.send programs.worker image (Utf8.ofText f.script) with
    | (_, .error _) => none
    | (_, .ok ()) => some (Request.encode image (Utf8.ofText f.script))

/-- `Outgoing programs store object f s request`: this is what evaluating the object sends to the
worker, and how the evaluation goes on from there. -/
inductive Outgoing (programs : Programs σ) (store : ObjectStore ω) (object : ω) (f : Filter σ)
    (s : System) : Option Bytes → Prop where
  /-- The image cannot be had, and that is all. -/
  | unread {object' : ω} {e : Error} :
      readImage f.imageSource store object = (object', .error e) →
      f.evaluate programs store object s = ⟨.error e, f, s, object'⟩ →
      Outgoing programs store object f s none
  /-- The worker takes no request, and that is all. -/
  | refused {object' : ω} {image : Bytes} {worker : Worker σ} {e : Error} :
      readImage f.imageSource store object = (object', .ok image) →
      f.worker.send programs.worker image (Utf8.ofText f.script) = (worker, .error e) →
      f.evaluate programs store object s =
        ⟨.error e, { f with worker := worker }, s, object'⟩ →
      Outgoing programs store object f s none
  /-- The request is sent to the worker's process, and the reply to it is read. -/
  | sent {object' : ω} {image : Bytes} {worker : Worker σ} :
      readImage f.imageSource store object = (object', .ok image) →
      f.worker.send programs.worker image (Utf8.ofText f.script) = (worker, .ok ()) →
      f.worker.process.send programs.worker (Request.encode image (Utf8.ofText f.script)) =
        (worker.process, true) →
      f.evaluate programs store object s =
        evaluateReply programs store object' { f with worker := worker } s →
      Outgoing programs store object f s (some (Request.encode image (Utf8.ofText f.script)))

/-- What is seen of an evaluation that takes place now. -/
def look (programs : Programs σ) (store : ObjectStore ω) (object : ω) (f : Filter σ) (s : System) :
    Seen ω :=
  let done := f.evaluate programs store object s
  ⟨done.answer, done.object, f.request? programs store object⟩

/-- Evaluates objects, one visit after the other. -/
def visitAll [DecidableEq ι] (programs : Programs σ) :
    List (Visit ι ω) → (ι → ω) → Filter σ → System → Visited σ ω
  | [], _, f, s => ⟨[], f, s⟩
  | visit :: visits, objects, f, s =>
    let done := f.evaluate programs visit.store (objects visit.object) s
    let rest := visitAll programs visits (Function.update objects visit.object done.object)
      done.filter done.system
    { rest with seen := f.look programs visit.store (objects visit.object) s :: rest.seen }

/-- `Spared programs visits objects f s kept seen`: of these visits, some that get no image are left
out, the others are kept, and that is seen of the kept ones where all visits take place. If reading
the image changes an object and fails, that object is not visited again. -/
inductive Spared [DecidableEq ι] (programs : Programs σ) :
    List (Visit ι ω) → (ι → ω) → Filter σ → System → List (Visit ι ω) → List (Seen ω) → Prop where
  | nil {objects : ι → ω} {f : Filter σ} {s : System} : Spared programs [] objects f s [] []
  | kept {visit : Visit ι ω} {visits kept : List (Visit ι ω)} {seen : List (Seen ω)}
      {objects : ι → ω} {f : Filter σ} {s : System} {done : Evaluation σ ω} :
      f.evaluate programs visit.store (objects visit.object) s = done →
      Spared programs visits (Function.update objects visit.object done.object) done.filter
        done.system kept seen →
      Spared programs (visit :: visits) objects f s (visit :: kept)
        (f.look programs visit.store (objects visit.object) s :: seen)
  | left_out {visit : Visit ι ω} {visits kept : List (Visit ι ω)} {seen : List (Seen ω)}
      {objects : ι → ω} {f : Filter σ} {s : System} {done : Evaluation σ ω} {object : ω}
      {e : Error} :
      readImage f.imageSource visit.store (objects visit.object) = (object, .error e) →
      (object = objects visit.object ∨ ∀ other ∈ visits, other.object ≠ visit.object) →
      f.evaluate programs visit.store (objects visit.object) s = done →
      Spared programs visits (Function.update objects visit.object done.object) done.filter
        done.system kept seen →
      Spared programs (visit :: visits) objects f s kept seen

variable {programs : Programs σ} {f : Filter σ} {s : System} {store : ObjectStore ω}
  {object object' : ω} {e : Error}

/-! ### One evaluation -/

theorem evaluate_of_unread (h : readImage f.imageSource store object = (object', .error e)) :
    f.evaluate programs store object s = ⟨.error e, f, s, object'⟩ := by
  rw [evaluate, h]

theorem evaluate_of_image {image : Bytes}
    (h : readImage f.imageSource store object = (object', .ok image)) :
    f.evaluate programs store object s = f.evaluateImage programs store image object' s := by
  rw [evaluate, h]

theorem request?_of_unread (h : readImage f.imageSource store object = (object', .error e)) :
    f.request? programs store object = none := by
  rw [request?, h]

/-- The request of an evaluation is what the evaluation sends. -/
theorem outgoing_request? (programs : Programs σ) (store : ObjectStore ω) (object : ω)
    (f : Filter σ) (s : System) :
    Outgoing programs store object f s (f.request? programs store object) := by
  rcases hread : readImage f.imageSource store object with ⟨object', e | image⟩
  · rw [request?_of_unread hread]
    exact .unread hread (evaluate_of_unread hread)
  · rcases hsend : f.worker.send programs.worker image (Utf8.ofText f.script) with
      ⟨worker, e | ⟨⟩⟩
    · have hrequest : f.request? programs store object = none := by simp [request?, hread, hsend]
      rw [hrequest]
      exact .refused hread hsend (by rw [evaluate_of_image hread, evaluateImage, hsend])
    · have hrequest : f.request? programs store object =
          some (Request.encode image (Utf8.ofText f.script)) := by simp [request?, hread, hsend]
      rw [hrequest]
      exact .sent hread hsend (Worker.process_of_send hsend) (evaluate_of_sent hread hsend)

/-! ### Evaluations in a row -/

variable [DecidableEq ι] {visits kept : List (Visit ι ω)} {objects : ι → ω} {seen : List (Seen ω)}

/-- Only the visited objects matter, and those that are left out do not: by induction on the visits,
for two ways the objects can be. -/
theorem Spared.visitAll_eq (h : Spared programs visits objects f s kept seen) {objects' : ι → ω}
    (hsame : ∀ visit ∈ visits, objects' visit.object = objects visit.object) :
    visitAll programs kept objects' f s =
      ⟨seen, (visitAll programs visits objects f s).filter,
        (visitAll programs visits objects f s).system⟩ := by
  induction h generalizing objects' with
  | nil => rfl
  | @kept visit visits kept seen objects f s done hdone _ ih =>
    have hvisit := hsame visit (by simp)
    have hrest : ∀ other ∈ visits, Function.update objects' visit.object done.object other.object =
        Function.update objects visit.object done.object other.object := by
      intro other hother
      by_cases hobject : other.object = visit.object
      · rw [hobject, Function.update_self, Function.update_self]
      · rw [Function.update_of_ne hobject, Function.update_of_ne hobject]
        exact hsame other (by simp [hother])
    simp only [visitAll, hvisit, hdone, ih hrest]
  | @left_out visit visits kept seen objects f s done object e hread hagain hdone _ ih =>
    obtain rfl : _ = done := (evaluate_of_unread hread).symm.trans hdone
    have hrest : ∀ other ∈ visits, objects' other.object =
        Function.update objects visit.object object other.object := by
      intro other hother
      have hother' := hsame other (by simp [hother])
      by_cases hobject : other.object = visit.object
      · have hunchanged := hagain.resolve_right fun hno => hno other hother hobject
        rw [hobject, Function.update_self, hunchanged, ← hobject, hother']
      · rw [Function.update_of_ne hobject, hother']
    simp only [visitAll, hdone]
    exact ih hrest

theorem Spared.seen_sublist (h : Spared programs visits objects f s kept seen) :
    seen.Sublist (visitAll programs visits objects f s).seen := by
  induction h with
  | nil => exact .slnil
  | kept hdone _ ih =>
    simp only [visitAll, hdone]
    exact ih.cons_cons _
  | left_out _ _ hdone _ ih =>
    simp only [visitAll, hdone]
    exact ih.cons _

/-- What is left out has sent nothing. -/
theorem Spared.requests (h : Spared programs visits objects f s kept seen) :
    (visitAll programs visits objects f s).seen.filterMap Seen.request =
      seen.filterMap Seen.request := by
  induction h with
  | nil => rfl
  | kept hdone _ ih =>
    simp only [visitAll, hdone, List.filterMap_cons, ih]
  | left_out hread _ hdone _ ih =>
    simp only [visitAll, hdone, List.filterMap_cons, look, request?_of_unread hread, ih]

/-- **An evaluation without an image leaves no trace.** The request of an evaluation is what it
sends to the worker. If the image of an object cannot be had, its evaluation fails with the reason,
whatever the store does with what is written; it sends no request, and leaves the filter and the
system as they were, and the object as reading has left it. If some visits that get no image are
left out of a row of visits, the others show what they show among all: their answers, the objects
that they leave and their requests. The worker receives the same requests, and the filter and the
system are the same in the end. -/
theorem unread_leaves_no_trace (programs : Programs σ) (f : Filter σ) (s : System) :
    (∀ (store : ObjectStore ω) (object : ω) (f' : Filter σ) (s' : System),
      Outgoing programs store object f' s' (f'.request? programs store object)) ∧
    (∀ (store : ObjectStore ω) (object object' : ω) (e : Error),
      readImage f.imageSource store object = (object', .error e) →
        f.request? programs store object = none ∧
        ∀ write, f.evaluate programs { store with write := write } object s =
          ⟨.error e, f, s, object'⟩) ∧
    ∀ (visits kept : List (Visit ι ω)) (objects : ι → ω) (seen : List (Seen ω)),
      Spared programs visits objects f s kept seen →
        let all := visitAll programs visits objects f s
        let rest := visitAll programs kept objects f s
        (rest.seen = seen ∧ seen.Sublist all.seen) ∧
        all.seen.filterMap Seen.request = rest.seen.filterMap Seen.request ∧
        rest.filter = all.filter ∧ rest.system = all.system := by
  refine ⟨outgoing_request? programs, fun store object object' e h =>
    ⟨request?_of_unread h, fun write => ?_⟩, fun visits kept objects seen h => ?_⟩
  · exact evaluate_of_unread (by rwa [readImage_unwritten])
  · have heq := h.visitAll_eq fun _ _ => rfl
    rw [heq]
    exact ⟨⟨rfl, h.seen_sublist⟩, h.requests, rfl, rfl⟩

/-! ### An object without data -/

/-- A store that has no attributes. -/
def emptyStore : ObjectStore Unit where
  read _ _ := ((), .ok none)
  write _ _ _ := ((), .ok ())

def missingData : Error := .badAttribute dataAttribute "is missing"

/-- Its visit may as well be left out of a row of two: the other one gives its score. -/
theorem missing_data_leaves_no_trace :
    readImage ascendingFilter.imageSource emptyStore () = ((), .error missingData) ∧
    ascendingFilter.evaluate ascendingPrograms emptyStore () bareSystem =
      ⟨.error missingData, ascendingFilter, bareSystem, ()⟩ ∧
    ∃ seen, Spared ascendingPrograms [⟨true, emptyStore⟩, ⟨false, plainStore true⟩] (fun _ => ())
        ascendingFilter bareSystem [⟨false, plainStore true⟩] seen ∧
      (visitAll ascendingPrograms [⟨false, plainStore true⟩] (fun _ : Bool => ()) ascendingFilter
        bareSystem).seen = seen ∧
      seen.map Seen.answer = [.ok 7] := by
  have hread : readImage ascendingFilter.imageSource emptyStore () = ((), .error missingData) := rfl
  obtain ⟨-, hone, hrow⟩ :=
    @unread_leaves_no_trace Nat Unit Bool _ ascendingPrograms ascendingFilter bareSystem
  have hspared : Spared ascendingPrograms [⟨true, emptyStore⟩, ⟨false, plainStore true⟩]
      (fun _ => ()) ascendingFilter bareSystem [⟨false, plainStore true⟩] _ :=
    .left_out hread (.inl rfl) rfl (.kept rfl .nil)
  refine ⟨hread, (hone emptyStore () () missingData hread).2 emptyStore.write, _, hspared,
    (hrow _ _ _ _ hspared).1.1, ?_⟩
  decide +kernel

end Filter

end ImageScoring
