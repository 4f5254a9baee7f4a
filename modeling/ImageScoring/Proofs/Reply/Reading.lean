import ImageScoring.Proofs.Reply.Grammar

/-!
# Reading follows the grammar

Each operation of a `Reader` succeeds exactly if the stream starts with what the grammar asks for,
and leaves what the grammar leaves. As reading is a function, what a stream starts with is unique.
-/

namespace ImageScoring

namespace Reader

open Reply (Line Sized Field AttributeBlock ResultBlock)

/-! ### Lines -/

theorem ne_newline_of_not_mem {l : Bytes} (h : newline ∉ l) : ∀ b ∈ l, (b != newline) = true := by
  intro b hb
  rw [bne_iff_ne]
  rintro rfl
  exact h hb

/-- A line that a newline ends. -/
theorem line?_of_eq {r : Reader} {l rest : Bytes} (h : newline ∉ l)
    (hr : r.rest = l ++ newline :: rest) :
    r.line? = .ok (some (dropReturn l, { r with rest := rest })) := by
  have hl := ne_newline_of_not_mem h
  have ht : (l ++ newline :: rest).takeWhile (· != newline) = l := by
    rw [List.takeWhile_append_of_pos hl, List.takeWhile_cons_of_neg (by simp), List.append_nil]
  have hd : (l ++ newline :: rest).dropWhile (· != newline) = newline :: rest := by
    rw [List.dropWhile_append_of_pos hl, List.dropWhile_cons_of_neg (by simp)]
  rw [line?, hr, ht, hd]

/-- No newline is left: the line goes up to the end, if there is one. -/
theorem line?_of_not_mem {r : Reader} (h : newline ∉ r.rest) :
    r.line? = match r.ending with
      | .silent => .error .hung
      | .closed =>
        if r.rest.isEmpty then .ok none
        else .ok (some (dropReturn r.rest, { r with rest := [] })) := by
  have hl := ne_newline_of_not_mem h
  have ht : r.rest.takeWhile (· != newline) = r.rest := List.takeWhile_eq_self_iff.mpr hl
  have hd : r.rest.dropWhile (· != newline) = [] := List.dropWhile_eq_nil_iff.mpr hl
  cases he : r.ending with
  | silent => rw [line?, ht, hd, he]
  | closed => rw [line?, ht, hd, he]

theorem line_of {r : Reader} {text rest : Bytes} (h : Line r.ending text r.rest rest) :
    r.line = .ok (text, { r with rest := rest }) := by
  obtain ⟨stream, e, skip, resync⟩ := r
  dsimp only at h ⊢
  cases h with
  | ended hl => rw [line, line?_of_eq hl rfl]
  | last hc hne hl =>
    rw [line, line?_of_not_mem hl, hc]
    simp [hne]

/-- A line is read exactly if the stream starts with one. -/
theorem line_eq_ok_iff {r r' : Reader} {text : Bytes} :
    r.line = .ok (text, r') ↔
      ∃ rest, Line r.ending text r.rest rest ∧ r' = { r with rest := rest } := by
  constructor
  · intro h
    by_cases hm : newline ∈ r.rest
    · obtain ⟨l, rest, hr, hl⟩ := List.eq_append_cons_of_mem hm
      rw [line, line?_of_eq hl hr] at h
      obtain ⟨rfl, rfl⟩ := Prod.mk.inj (Except.ok.inj h)
      exact ⟨rest, hr ▸ .ended hl, rfl⟩
    · rw [line, line?_of_not_mem hm] at h
      cases he : r.ending with
      | silent => simp [he] at h
      | closed =>
        by_cases hne : r.rest = []
        · simp [he, hne] at h
        · simp only [he, List.isEmpty_eq_false_iff.mpr hne] at h
          obtain ⟨rfl, rfl⟩ := Prod.mk.inj (Except.ok.inj h)
          exact ⟨[], .last rfl hne hm, rfl⟩
  · rintro ⟨rest, h, rfl⟩
    exact line_of h

/-! ### Sized parts -/

theorem payload_eq_ok_iff {r r' : Reader} {count : Nat} {part : Bytes} :
    r.payload count = .ok (part, r') ↔
      ∃ rest, r.rest = part ++ rest ∧ part.length = count ∧ r' = { r with rest := rest } := by
  unfold payload
  dsimp only
  constructor
  · intro h
    split at h
    · simp at h
    · next hlt =>
      obtain ⟨rfl, rfl⟩ := Prod.mk.inj (Except.ok.inj h)
      rw [List.length_take] at hlt
      exact ⟨r.rest.drop count, (List.take_append_drop count r.rest).symm,
        by rw [List.length_take]; omega, rfl⟩
  · rintro ⟨rest, hr, rfl, rfl⟩
    rw [hr, List.take_left, List.drop_left, if_neg (Nat.lt_irrefl _)]

theorem sized_eq_ok_iff {r r' : Reader} {part : Bytes} :
    r.sized = .ok (part, r') ↔
      ∃ rest, Sized r.ending part r.rest rest ∧ r' = { r with rest := rest } := by
  constructor
  · intro h
    unfold sized at h
    split at h
    · simp at h
    · next text r₁ hl =>
      obtain ⟨s, hline, rfl⟩ := line_eq_ok_iff.mp hl
      split at h
      · simp at h
      · next count hc =>
        split at h
        · simp at h
        · next answer hp =>
          obtain rfl := Except.ok.inj h
          obtain ⟨rest, rfl, rfl, rfl⟩ := payload_eq_ok_iff.mp hp
          exact ⟨rest, .intro hline (Count.ofLine?_eq_some_iff.mp hc), rfl⟩
  · rintro ⟨rest, ⟨hl, hc⟩, rfl⟩
    have hp := payload_eq_ok_iff (r := { r with rest := part ++ rest }).mpr ⟨rest, rfl, rfl, rfl⟩
    rw [sized, line_of hl]
    dsimp only
    rw [Count.ofLine?_eq_some_iff.mpr hc]
    dsimp only
    rw [hp]

theorem terminator_eq_ok_iff {r r' : Reader} :
    r.terminator = .ok (true, r') ↔
      ∃ rest, r.rest = newline :: rest ∧ r' = { r with rest := rest } := by
  unfold terminator
  constructor
  · intro h
    split at h
    · simp at h
    · next b rest hr =>
      obtain ⟨hb, rfl⟩ := Prod.mk.inj (Except.ok.inj h)
      exact ⟨rest, by rw [hr, beq_iff_eq.mp hb], rfl⟩
  · rintro ⟨rest, hr, rfl⟩
    rw [hr]
    simp

theorem field_eq_ok_iff {r r' : Reader} {marker part : Bytes} :
    r.field marker = .ok (part, r') ↔
      ∃ rest, Field r.ending marker part r.rest rest ∧ r' = { r with rest := rest } := by
  constructor
  · intro h
    unfold field at h
    split at h
    · simp at h
    · next text r₁ hl =>
      obtain ⟨s, hline, rfl⟩ := line_eq_ok_iff.mp hl
      split at h
      · simp at h
      · next hm =>
        rw [ne_eq, not_not] at hm
        subst hm
        split at h
        · simp at h
        · next part' r₂ hs =>
          obtain ⟨s₂, hsized, rfl⟩ := sized_eq_ok_iff.mp hs
          split at h
          · simp at h
          · next r₃ ht =>
            obtain ⟨rest, rfl, rfl⟩ := terminator_eq_ok_iff.mp ht
            obtain ⟨rfl, rfl⟩ := Prod.mk.inj (Except.ok.inj h)
            exact ⟨rest, .intro hline hsized, rfl⟩
          · simp at h
  · rintro ⟨rest, ⟨hl, hs⟩, rfl⟩
    next s =>
    have hsized := sized_eq_ok_iff (r := { r with rest := s }).mpr ⟨_, hs, rfl⟩
    have ht := terminator_eq_ok_iff (r := { r with rest := newline :: rest }).mpr ⟨_, rfl, rfl⟩
    rw [field, line_of hl]
    simp only [ne_eq, not_true_eq_false, if_false, hsized, ht]

/-! ### Records -/

theorem attributeBody_eq_ok_iff {r r' : Reader} {a : Attribute} :
    r.attributeBody = .ok (a, r') ↔
      ∃ s rest, Field r.ending Reply.keyMarker a.key r.rest s ∧
        Field r.ending Reply.valueMarker a.value s rest ∧ r' = { r with rest := rest } := by
  constructor
  · intro h
    unfold attributeBody at h
    split at h
    · simp at h
    · next key r₁ hk =>
      obtain ⟨s, hkey, rfl⟩ := field_eq_ok_iff.mp hk
      split at h
      · simp at h
      · next value r₂ hv =>
        obtain ⟨rest, hvalue, rfl⟩ := field_eq_ok_iff.mp hv
        obtain ⟨rfl, rfl⟩ := Prod.mk.inj (Except.ok.inj h)
        exact ⟨s, rest, hkey, hvalue, rfl⟩
  · rintro ⟨s, rest, hk, hv, rfl⟩
    have hkey := field_eq_ok_iff.mpr ⟨s, hk, rfl⟩
    have hvalue := field_eq_ok_iff (r := { r with rest := s }).mpr ⟨rest, hv, rfl⟩
    rw [attributeBody, hkey]
    dsimp only
    rw [hvalue]

theorem recordOf_eq_ok_iff {α : Type} {wrap : α → Reply.Record} {record : Reply.Record}
    {answer : Except Stop (α × Reader)} {r' : Reader} (h : ∀ error, record ≠ .malformed error) :
    recordOf wrap answer = .ok (record, r') ↔
      ∃ part, answer = .ok (part, r') ∧ wrap part = record := by
  constructor
  · intro hr
    cases answer with
    | ok parts =>
      obtain ⟨rfl, rfl⟩ := Prod.mk.inj (Except.ok.inj hr)
      exact ⟨parts.1, rfl, rfl⟩
    | error stop =>
      cases stop with
      | fault fault => simp [recordOf] at hr
      | malformed error r =>
        obtain ⟨rfl, -⟩ := Prod.mk.inj (Except.ok.inj hr)
        exact absurd rfl (h error)
  · rintro ⟨part, rfl, rfl⟩
    rfl

theorem headerLine_of_skipBlank {r : Reader} (h : r.skipBlank = false) : r.headerLine = r.line := by
  unfold headerLine
  cases hl : r.line with
  | error fault => rfl
  | ok answer =>
    obtain ⟨text, r'⟩ := answer
    obtain ⟨rest, -, rfl⟩ := line_eq_ok_iff.mp hl
    simp [h]

/-- A header is a line, whose text tells which. -/
theorem header_eq_ok_iff {r r' : Reader} {header : Reply.Header} (h : r.skipBlank = false) :
    r.header = .ok (header, r') ↔
      ∃ text rest, Line r.ending text r.rest rest ∧ header = .ofLine text ∧
        r' = { r with rest := rest } := by
  unfold Reader.header
  rw [headerLine_of_skipBlank h]
  constructor
  · intro hh
    split at hh
    · next text r₁ hl =>
      obtain ⟨rest, hline, rfl⟩ := line_eq_ok_iff.mp hl
      obtain ⟨rfl, rfl⟩ := Prod.mk.inj (Except.ok.inj hh)
      exact ⟨text, rest, hline, rfl, rfl⟩
    · simp at hh
  · rintro ⟨text, rest, hl, rfl, rfl⟩
    rw [line_of hl]

end Reader

namespace Reply.Header

theorem ofLine_eq_opening_iff {line : Bytes} : ofLine line = .opening ↔ line = beginLine := by
  unfold ofLine
  split_ifs <;> simp_all

theorem ofLine_eq_attr_iff {line : Bytes} : ofLine line = .attr ↔ line = attributeLine := by
  have h : beginLine ≠ attributeLine := by decide
  unfold ofLine
  split_ifs <;> simp_all

theorem ofLine_eq_result_iff {line : Bytes} : ofLine line = .result ↔ line = resultLine := by
  have h : beginLine ≠ resultLine := by decide
  have h' : attributeLine ≠ resultLine := by decide
  unfold ofLine
  split_ifs <;> simp_all

end Reply.Header

namespace Reader

open Reply (Line Sized Field AttributeBlock ResultBlock)
open Reply.Header

/-- An attribute is read exactly if the stream starts with one. -/
theorem record_eq_attr_iff {r r' : Reader} {a : Attribute} (h : r.skipBlank = false) :
    r.record = .ok (.attr a, r') ↔
      ∃ rest, AttributeBlock r.ending a r.rest rest ∧ r' = { r with rest := rest } := by
  constructor
  · intro hr
    unfold Reader.record at hr
    split at hr
    · simp at hr
    · simp at hr
    · next r₁ hh =>
      obtain ⟨text, s, hline, htext, rfl⟩ := (header_eq_ok_iff h).mp hh
      obtain ⟨a', hb, ha⟩ := (recordOf_eq_ok_iff (by simp)).mp hr
      obtain rfl := Reply.Record.attr.inj ha
      obtain ⟨s₁, rest, hk, hv, rfl⟩ := attributeBody_eq_ok_iff.mp hb
      rw [ofLine_eq_attr_iff.mp htext.symm] at hline
      exact ⟨rest, .intro hline hk hv, rfl⟩
    · next r₁ hh =>
      obtain ⟨part, -, ha⟩ := (recordOf_eq_ok_iff (by simp)).mp hr
      simp at ha
    · simp at hr
  · rintro ⟨rest, ⟨hl, hk, hv⟩, rfl⟩
    next key value s₁ s₂ =>
    have hh := (header_eq_ok_iff h).mpr ⟨_, _, hl, rfl, rfl⟩
    have hb := attributeBody_eq_ok_iff (r := { r with rest := s₁ }) (a := ⟨key, value⟩).mpr
      ⟨s₂, rest, hk, hv, rfl⟩
    rw [ofLine_eq_attr_iff.mpr rfl] at hh
    rw [Reader.record, hh]
    dsimp only
    rw [hb]
    rfl

/-- A result is read exactly if the stream starts with one. -/
theorem record_eq_result_iff {r r' : Reader} {value : Binary64} (h : r.skipBlank = false) :
    r.record = .ok (.result value, r') ↔
      ∃ payload rest, ResultBlock r.ending payload r.rest rest ∧ value = Prefix.value payload ∧
        r' = { r with rest := rest, skipBlank := true } := by
  constructor
  · intro hr
    unfold Reader.record at hr
    split at hr
    · simp at hr
    · simp at hr
    · next r₁ hh =>
      obtain ⟨part, -, ha⟩ := (recordOf_eq_ok_iff (by simp)).mp hr
      simp at ha
    · next r₁ hh =>
      obtain ⟨text, s, hline, htext, rfl⟩ := (header_eq_ok_iff h).mp hh
      obtain ⟨value', hb, hv⟩ := (recordOf_eq_ok_iff (by simp)).mp hr
      obtain rfl := Reply.Record.result.inj hv
      rw [ofLine_eq_result_iff.mp htext.symm] at hline
      unfold resultBody at hb
      split at hb
      · simp at hb
      · next payload r₂ hs =>
        obtain ⟨rest, hsized, rfl⟩ := sized_eq_ok_iff.mp hs
        obtain ⟨rfl, rfl⟩ := Prod.mk.inj (Except.ok.inj hb)
        exact ⟨payload, rest, .intro hline hsized, rfl, rfl⟩
    · simp at hr
  · rintro ⟨payload, rest, ⟨hl, hs⟩, rfl, rfl⟩
    next s =>
    have hh := (header_eq_ok_iff h).mpr ⟨_, _, hl, rfl, rfl⟩
    have hb := sized_eq_ok_iff (r := { r with rest := s }).mpr ⟨rest, hs, rfl⟩
    rw [ofLine_eq_result_iff.mpr rfl] at hh
    rw [Reader.record, hh]
    dsimp only
    rw [resultBody, hb]
    rfl

end Reader

/-! ### What a stream starts with is unique -/

namespace Reply

variable {e : Ending}

theorem Line.unique {text text' stream rest rest' : Bytes} (h : Line e text stream rest)
    (h' : Line e text' stream rest') : text = text' ∧ rest = rest' := by
  have hl := Reader.line_of (r := { rest := stream, ending := e }) h
  rw [Reader.line_of h'] at hl
  simp only [Except.ok.injEq, Prod.mk.injEq, Reader.mk.injEq] at hl
  exact ⟨hl.1.symm, hl.2.1.symm⟩

theorem AttributeBlock.unique {a a' : Attribute} {stream rest rest' : Bytes}
    (h : AttributeBlock e a stream rest) (h' : AttributeBlock e a' stream rest') :
    a = a' ∧ rest = rest' := by
  have hr := (Reader.record_eq_attr_iff (r := { rest := stream, ending := e }) rfl).mpr ⟨_, h, rfl⟩
  rw [(Reader.record_eq_attr_iff rfl).mpr ⟨_, h', rfl⟩] at hr
  simp only [Except.ok.injEq, Prod.mk.injEq, Record.attr.injEq, Reader.mk.injEq] at hr
  exact ⟨hr.1.symm, hr.2.1.symm⟩

theorem ResultBlock.unique {payload payload' stream rest rest' : Bytes}
    (h : ResultBlock e payload stream rest) (h' : ResultBlock e payload' stream rest') :
    payload = payload' ∧ rest = rest' := by
  obtain ⟨hl, hs⟩ := h
  obtain ⟨hl', hs'⟩ := h'
  obtain ⟨-, rfl⟩ := hl.unique hl'
  next s =>
  have hr := Reader.sized_eq_ok_iff (r := { rest := s, ending := e }).mpr ⟨_, hs, rfl⟩
  rw [Reader.sized_eq_ok_iff.mpr ⟨_, hs', rfl⟩] at hr
  simp only [Except.ok.injEq, Prod.mk.injEq, Reader.mk.injEq] at hr
  exact ⟨hr.1.symm, hr.2.1.symm⟩

/-- An attribute is no result. -/
theorem AttributeBlock.not_resultBlock {a : Attribute} {payload stream rest rest' : Bytes}
    (h : AttributeBlock e a stream rest) (h' : ResultBlock e payload stream rest') : False := by
  obtain ⟨hl, -, -⟩ := h
  obtain ⟨hl', -⟩ := h'
  exact absurd (hl.unique hl').1 (by decide)

theorem Body.unique {attributes attributes' : List Attribute}
    {payload payload' stream rest rest' : Bytes} (h : Body e attributes payload stream rest)
    (h' : Body e attributes' payload' stream rest') :
    attributes = attributes' ∧ payload = payload' ∧ rest = rest' := by
  induction h generalizing attributes' with
  | result hr =>
    cases h' with
    | result hr' => exact ⟨rfl, hr.unique hr'⟩
    | attr ha' _ => exact (ha'.not_resultBlock hr).elim
  | attr ha _ ih =>
    cases h' with
    | result hr' => exact (ha.not_resultBlock hr').elim
    | attr ha' hb' =>
      obtain ⟨rfl, rfl⟩ := ha.unique ha'
      obtain ⟨rfl, hrest⟩ := ih hb'
      exact ⟨rfl, hrest⟩

/-- **A stream starts with at most one reply.** -/
theorem Framed.unique {attributes attributes' : List Attribute}
    {payload payload' stream rest rest' : Bytes} (h : Framed e attributes payload stream rest)
    (h' : Framed e attributes' payload' stream rest') :
    attributes = attributes' ∧ payload = payload' ∧ rest = rest' := by
  obtain ⟨hl, hb⟩ := h
  obtain ⟨hl', hb'⟩ := h'
  obtain ⟨-, rfl⟩ := hl.unique hl'
  exact hb.unique hb'

end Reply

end ImageScoring
