import ImageScoring.Proofs.Reply.Sequence
import Mathlib.Data.List.Basic

/-!
# More octets behind

A session that has ended without a fault does not depend on what comes behind the octets at hand, as
long as these are whole lines: with more octets behind them, and whatever comes behind those, it
ends in the same way and leaves the additional octets unread. Nor does it depend on what an
accepting sink does.
-/

namespace ImageScoring

/-- Nothing, or something that ends with a newline. -/
def Whole (stream : Bytes) : Prop :=
  stream = [] ∨ stream.getLast? = some newline

theorem Whole.suffix {stream rest : Bytes} (h : Whole stream) (hs : rest <:+ stream) :
    Whole rest := by
  obtain ⟨read, rfl⟩ := hs
  by_cases hr : rest = []
  · exact .inl hr
  · rcases h with h | h
    · exact .inl (List.append_eq_nil_iff.mp h).2
    · rw [List.getLast?_append_of_ne_nil _ hr] at h
      exact .inr h

theorem exists_line_of_whole {stream : Bytes} (hw : Whole stream) (hne : stream ≠ []) :
    ∃ l rest, newline ∉ l ∧ stream = l ++ newline :: rest ∧ Whole rest := by
  have hmem : newline ∈ stream := List.mem_of_getLast? (hw.resolve_left hne)
  obtain ⟨l, rest, rfl, hl⟩ := List.eq_append_cons_of_mem hmem
  have hs : rest <:+ l ++ newline :: rest :=
    (List.suffix_cons newline rest).trans (List.suffix_append l _)
  exact ⟨l, rest, hl, rfl, hw.suffix hs⟩

namespace Reader

open Reply (Line)

/-- The reader with more octets behind those at hand, and something else behind these. -/
def grow (more : Bytes) (e : Ending) (r : Reader) : Reader :=
  { r with rest := r.rest ++ more, ending := e }

variable {r r' : Reader}

/-! ### Lines and sized parts -/

theorem line_of_whole {e₀ : Ending} {text stream rest : Bytes} (hw : Whole stream)
    (h : Line e₀ text stream rest) (more : Bytes) (e : Ending) :
    Line e text (stream ++ more) (rest ++ more) := by
  cases h with
  | ended hl =>
    rw [List.append_assoc, List.cons_append]
    exact .ended hl
  | last _ hne hl =>
    rcases hw with rfl | hw
    · exact absurd rfl hne
    · exact absurd (List.mem_of_getLast? hw) hl

theorem line_grow {text : Bytes} (hw : Whole r.rest) (h : r.line = .ok (text, r')) (more : Bytes)
    (e : Ending) : (r.grow more e).line = .ok (text, r'.grow more e) ∧ Whole r'.rest := by
  obtain ⟨rest, hl, rfl⟩ := line_eq_ok_iff.mp h
  exact ⟨line_eq_ok_iff.mpr ⟨rest ++ more, line_of_whole hw hl more e, rfl⟩, hw.suffix hl.suffix⟩

theorem payload_grow {count : Nat} {part : Bytes} (hw : Whole r.rest)
    (h : r.payload count = .ok (part, r')) (more : Bytes) (e : Ending) :
    (r.grow more e).payload count = .ok (part, r'.grow more e) ∧ Whole r'.rest := by
  obtain ⟨rest, hr, hc, rfl⟩ := payload_eq_ok_iff.mp h
  refine ⟨payload_eq_ok_iff.mpr ⟨rest ++ more, ?_, hc, rfl⟩, hw.suffix ⟨part, hr.symm⟩⟩
  rw [grow, hr, List.append_assoc]

theorem terminator_grow {ends : Bool} (hw : Whole r.rest) (h : r.terminator = .ok (ends, r'))
    (more : Bytes) (e : Ending) :
    (r.grow more e).terminator = .ok (ends, r'.grow more e) ∧ Whole r'.rest := by
  unfold terminator at h
  split at h
  · simp at h
  · next b rest hr =>
    obtain ⟨rfl, rfl⟩ := Prod.mk.inj (Except.ok.inj h)
    refine ⟨?_, hw.suffix ⟨[b], hr.symm⟩⟩
    rw [terminator, grow, hr]
    rfl

/-! ### Parts of records -/

/-- `Grown more e short long`: what was had from a reader is had from the grown reader as well; only
a fault of the stream may turn into something else. -/
inductive Grown {α : Type} (more : Bytes) (e : Ending) :
    Except Stop (α × Reader) → Except Stop (α × Reader) → Prop where
  | fault {fault : ReadFault} {long : Except Stop (α × Reader)} :
      Grown more e (.error (.fault fault)) long
  | malformed {error : Reply.FramingError} {r : Reader} : Whole r.rest →
      Grown more e (.error (.malformed error r)) (.error (.malformed error (r.grow more e)))
  | ok {part : α} {r : Reader} : Whole r.rest →
      Grown more e (.ok (part, r)) (.ok (part, r.grow more e))

theorem sized_grown (hw : Whole r.rest) (more : Bytes) (e : Ending) :
    Grown more e r.sized (r.grow more e).sized := by
  unfold sized
  cases hl : r.line with
  | error fault => exact .fault
  | ok answer =>
    obtain ⟨hl', hw₁⟩ := line_grow hw hl more e
    rw [hl']
    dsimp only
    cases Count.ofLine? answer.1 with
    | none => exact .malformed hw₁
    | some count =>
      dsimp only
      cases hp : answer.2.payload count with
      | error fault => exact .fault
      | ok answer' =>
        obtain ⟨hp', hw₂⟩ := payload_grow hw₁ hp more e
        rw [hp']
        exact .ok hw₂

theorem field_grown (marker : Bytes) (hw : Whole r.rest) (more : Bytes) (e : Ending) :
    Grown more e (r.field marker) ((r.grow more e).field marker) := by
  unfold field
  cases hl : r.line with
  | error fault => exact .fault
  | ok answer =>
    obtain ⟨hl', hw₁⟩ := line_grow hw hl more e
    rw [hl']
    dsimp only
    by_cases hm : answer.1 = marker
    · rw [if_neg (not_not.mpr hm), if_neg (not_not.mpr hm)]
      have hs := sized_grown hw₁ more e
      revert hs
      generalize answer.2.sized = short, (answer.2.grow more e).sized = long
      intro hs
      cases hs with
      | fault => exact .fault
      | malformed hw₂ => exact .malformed hw₂
      | @ok part r₂ hw₂ =>
        dsimp only
        cases ht : r₂.terminator with
        | error fault => exact .fault
        | ok ends =>
          obtain ⟨ht', hw₃⟩ := terminator_grow hw₂ ht more e
          rw [ht']
          obtain ⟨_ | _, r₃⟩ := ends
          · exact .malformed hw₃
          · exact .ok hw₃
    · rw [if_pos hm, if_pos hm]
      exact .malformed hw₁

theorem attributeBody_grown (hw : Whole r.rest) (more : Bytes) (e : Ending) :
    Grown more e r.attributeBody (r.grow more e).attributeBody := by
  unfold attributeBody
  have hk := field_grown Reply.keyMarker hw more e
  revert hk
  generalize r.field Reply.keyMarker = short, (r.grow more e).field Reply.keyMarker = long
  intro hk
  cases hk with
  | fault => exact .fault
  | malformed hw₁ => exact .malformed hw₁
  | @ok key r₁ hw₁ =>
    dsimp only
    have hv := field_grown Reply.valueMarker hw₁ more e
    revert hv
    generalize r₁.field Reply.valueMarker = short, (r₁.grow more e).field Reply.valueMarker = long
    intro hv
    cases hv with
    | fault => exact .fault
    | malformed hw₂ => exact .malformed hw₂
    | ok hw₂ => exact .ok hw₂

theorem resultBody_grown (hw : Whole r.rest) (more : Bytes) (e : Ending) :
    Grown more e r.resultBody (r.grow more e).resultBody := by
  unfold resultBody
  have hs := sized_grown hw more e
  revert hs
  generalize r.sized = short, (r.grow more e).sized = long
  intro hs
  cases hs with
  | fault => exact .fault
  | malformed hw₁ => exact .malformed hw₁
  | ok hw₁ => exact .ok hw₁

/-! ### Records -/

theorem recordOf_grow {α : Type} {wrap : α → Reply.Record} {record : Reply.Record} {more : Bytes}
    {e : Ending} {short long : Except Stop (α × Reader)} (hg : Grown more e short long)
    (h : recordOf wrap short = .ok (record, r')) :
    recordOf wrap long = .ok (record, r'.grow more e) ∧ Whole r'.rest := by
  cases hg with
  | fault => simp [recordOf] at h
  | malformed hw =>
    obtain ⟨rfl, rfl⟩ := Prod.mk.inj (Except.ok.inj h)
    exact ⟨rfl, hw⟩
  | ok hw =>
    obtain ⟨rfl, rfl⟩ := Prod.mk.inj (Except.ok.inj h)
    exact ⟨rfl, hw⟩

theorem headerLine_grow {text : Bytes} (hw : Whole r.rest) (h : r.headerLine = .ok (text, r'))
    (more : Bytes) (e : Ending) :
    (r.grow more e).headerLine = .ok (text, r'.grow more e) ∧ Whole r'.rest := by
  unfold headerLine at h ⊢
  cases hl : r.line with
  | error fault => simp [hl] at h
  | ok answer =>
    obtain ⟨hl', hw₁⟩ := line_grow hw hl more e
    rw [hl] at h
    rw [hl']
    dsimp only at h ⊢
    by_cases hb : (r.skipBlank && answer.1.isEmpty) = true
    · rw [if_pos hb] at h
      rw [if_pos (show ((r.grow more e).skipBlank && answer.1.isEmpty) = true from hb)]
      exact line_grow (r := { answer.2 with skipBlank := false }) hw₁ h more e
    · rw [if_neg hb] at h
      rw [if_neg (show ¬((r.grow more e).skipBlank && answer.1.isEmpty) = true from hb)]
      obtain ⟨rfl, rfl⟩ := Prod.mk.inj (Except.ok.inj h)
      exact ⟨rfl, hw₁⟩

theorem header_grow {header : Reply.Header} (hw : Whole r.rest) (h : r.header = .ok (header, r'))
    (more : Bytes) (e : Ending) :
    (r.grow more e).header = .ok (header, r'.grow more e) ∧ Whole r'.rest := by
  unfold Reader.header at h ⊢
  cases hl : r.headerLine with
  | error fault => simp [hl] at h
  | ok answer =>
    obtain ⟨hl', hw₁⟩ := headerLine_grow hw hl more e
    rw [hl] at h
    rw [hl']
    obtain ⟨rfl, rfl⟩ := Prod.mk.inj (Except.ok.inj h)
    exact ⟨rfl, hw₁⟩

theorem record_grow {record : Reply.Record} (hw : Whole r.rest) (h : r.record = .ok (record, r'))
    (more : Bytes) (e : Ending) :
    (r.grow more e).record = .ok (record, r'.grow more e) ∧ Whole r'.rest := by
  unfold Reader.record at h ⊢
  cases hh : r.header with
  | error fault => simp [hh] at h
  | ok answer =>
    obtain ⟨header, r₁⟩ := answer
    obtain ⟨hh', hw₁⟩ := header_grow hw hh more e
    rw [hh] at h
    rw [hh']
    cases header with
    | opening =>
      obtain ⟨rfl, rfl⟩ := Prod.mk.inj (Except.ok.inj h)
      exact ⟨rfl, hw₁⟩
    | attr => exact recordOf_grow (attributeBody_grown hw₁ more e) h
    | result => exact recordOf_grow (resultBody_grown hw₁ more e) h
    | other line =>
      obtain ⟨rfl, rfl⟩ := Prod.mk.inj (Except.ok.inj h)
      exact ⟨rfl, hw₁⟩

end Reader

/-- A reader that is ready for a stream stays so when the stream goes on. -/
theorem Reply.Ready.grow {stream : Bytes} {r : Reader} (h : Ready stream r) (more : Bytes)
    (e : Ending) : Ready (stream ++ more) (r.grow more e) := by
  cases h with
  | fresh => exact .fresh
  | behind hb =>
    rw [Reader.grow, List.append_assoc]
    exact .behind hb
  | lost hj =>
    rw [Reader.grow, List.append_assoc]
    exact .lost hj

namespace Reply.Session

variable {ω : Type}

/-- What a session makes of a stream of its own, where nothing comes behind it and its attributes go
nowhere. -/
def alone (stream : Bytes) : Run Unit :=
  run (accepting fun _ _ => ()) {} { rest := stream } ()

/-- `Same more e short long`: with more octets behind them and another sink, `long` went as `short`
did, and the additional octets are unread. -/
structure Same (more : Bytes) (e : Ending) (short : Run Unit) (long : Run ω) : Prop where
  answer : long.answer = short.answer
  session : long.session = short.session
  reader : long.reader = short.reader.grow more e
  whole : Whole short.reader.rest

theorem records_grow {count : Nat} {r : Reader} {outcome : Outcome} (hw : Whole r.rest)
    (h : (records (accepting fun _ _ => ()) count r ()).answer = .ok outcome) (more : Bytes)
    (e : Ending) (take : ω → Attribute → ω) (store : ω) :
    Same more e (records (accepting fun _ _ => ()) count r ())
      (records (accepting take) count (r.grow more e) store) := by
  induction hl : r.rest.length using Nat.strong_induction_on generalizing r count store with
  | _ length ih =>
    subst hl
    rw [records_eq] at h ⊢
    cases hr : r.record with
    | error fault => simp [hr, broken] at h
    | ok answer =>
      obtain ⟨record, r'⟩ := answer
      obtain ⟨hr', hw'⟩ := Reader.record_grow hw hr more e
      rw [hr] at h
      rw [records_eq (accepting take), hr']
      cases record with
      | opening => exact ⟨rfl, rfl, rfl, hw'⟩
      | result value => exact ⟨rfl, rfl, rfl, hw'⟩
      | malformed error => exact ⟨rfl, rfl, rfl, hw'⟩
      | attr a => exact ih _ (Reader.length_of_record_eq_attr hr) hw' h (take store a) rfl

theorem run_grow {stream : Bytes} {outcome : Outcome} (hw : Whole stream)
    (h : (alone stream).answer = .ok outcome) (more : Bytes) (e : Ending) (take : ω → Attribute → ω)
    (store : ω) :
    Same more e (alone stream)
      (run (accepting take) {} { rest := stream ++ more, ending := e } store) := by
  unfold alone at h ⊢
  simp only [run] at h ⊢
  cases hh : Reader.header { rest := stream } with
  | error fault => simp [hh, broken] at h
  | ok answer =>
    obtain ⟨header, r⟩ := answer
    obtain ⟨hh', hw'⟩ := Reader.header_grow (r := { rest := stream }) hw hh more e
    rw [hh] at h
    rw [show Reader.header { rest := stream ++ more, ending := e } = _ from hh']
    cases header with
    | opening => exact records_grow hw' h more e take store
    | attr => exact ⟨rfl, rfl, rfl, hw'⟩
    | result => exact ⟨rfl, rfl, rfl, hw'⟩
    | other line => exact ⟨rfl, rfl, rfl, hw'⟩

end Reply.Session

end ImageScoring
