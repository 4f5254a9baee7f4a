import ImageScoring.Display.Template
import ImageScoring.Proofs.Count
import Mathlib.Data.List.Forall2

/-!
# Filling templates

`Replaced pattern new text result` says what replacing from the left is: the first occurrence of the
pattern gives way to the new text, and the replacing goes on behind it, until no occurrence is left.
There is one result at most (`Replaced.unique`). If the new text shares no character with the
pattern, no occurrence can reach into it from either side, so the result holds none
(`Replaced.absent_result`).

The arguments of a display server are their templates with the placeholder replaced by the decimal
digits of the display, and the placeholder holds no digit: the arguments are without placeholders,
whatever the templates are (`command_complete`).
-/

namespace ImageScoring.Template

variable {pattern new text before after result result' : List Char}

/-! ### Occurrences -/

/-- The first occurrence of the pattern in the text stands behind `before`. -/
def IsFirst (pattern before text : List Char) : Prop :=
  before ++ pattern <+: text ∧
    ∀ earlier, earlier ++ pattern <+: text → before.length ≤ earlier.length

namespace IsFirst

/-- A text that begins with the pattern. -/
theorem nil (h : pattern <+: text) : IsFirst pattern [] text :=
  ⟨h, fun _ _ => Nat.zero_le _⟩

/-- One more character in front, unless the pattern begins with it. -/
theorem cons {c : Char} (hno : ¬pattern <+: c :: text) (h : IsFirst pattern before text) :
    IsFirst pattern (c :: before) (c :: text) := by
  refine ⟨List.cons_prefix_cons.mpr ⟨rfl, h.1⟩, fun earlier hearlier => ?_⟩
  cases earlier with
  | nil => exact absurd hearlier hno
  | cons d earlier =>
    exact Nat.succ_le_succ (h.2 earlier (List.cons_prefix_cons.mp hearlier).2)

theorem unique {before' : List Char} (h : IsFirst pattern before text)
    (h' : IsFirst pattern before' text) : before = before' := by
  have hlength : before.length = before'.length := Nat.le_antisymm (h.2 _ h'.1) (h'.2 _ h.1)
  have hbefore : before <+: text := (List.prefix_append ..).trans h.1
  have hbefore' : before' <+: text := (List.prefix_append ..).trans h'.1
  exact (List.prefix_of_prefix_length_le hbefore hbefore' hlength.le).eq_of_length hlength

/-- No occurrence stands before the first one. -/
theorem absent_before (hpattern : pattern ≠ []) (h : IsFirst pattern before text) :
    ¬pattern <:+: before := by
  rintro ⟨front, back, rfl⟩
  have hfront : front ++ pattern <+: text := by
    refine List.IsPrefix.trans ?_ h.1
    rw [List.append_assoc]
    exact List.prefix_append ..
  have hle := h.2 front hfront
  have hpos := List.length_pos_of_ne_nil hpattern
  simp only [List.length_append] at hle
  omega

end IsFirst

/-- No occurrence runs across a character that is not in the pattern. -/
theorem infix_of_infix_append_cons {c : Char} (hc : c ∉ pattern)
    (h : pattern <:+: before ++ c :: after) : pattern <:+: before ∨ pattern <:+: after := by
  obtain ⟨front, back, h⟩ := h
  rw [List.append_assoc] at h
  obtain ⟨middle, rfl, hmiddle⟩ | ⟨middle, rfl, hmiddle⟩ := List.append_eq_append_iff.mp h
  · -- the occurrence begins in what stands before the character
    obtain ⟨rest, rfl, -⟩ | ⟨rest, rfl, hrest⟩ := List.append_eq_append_iff.mp hmiddle
    · exact .inl ⟨front, rest, by simp⟩
    · cases rest with
      | nil => exact .inl ⟨front, [], by simp⟩
      | cons d rest =>
        obtain ⟨rfl, -⟩ := List.cons_eq_cons.mp hrest
        simp at hc
  · -- it begins with the character, or behind it
    cases middle with
    | nil =>
      cases pattern with
      | nil => exact .inl List.nil_infix
      | cons d pattern =>
        obtain ⟨rfl, -⟩ := List.cons_eq_cons.mp hmiddle
        simp at hc
    | cons d middle =>
      obtain ⟨-, rfl⟩ := List.cons_eq_cons.mp hmiddle
      exact .inr ⟨middle, back, by simp⟩

/-- No occurrence runs across a text that shares no character with the pattern, nor into it. -/
theorem infix_of_infix_append (hne : new ≠ []) (hnew : ∀ c ∈ new, c ∉ pattern)
    (h : pattern <:+: before ++ new ++ after) : pattern <:+: before ∨ pattern <:+: after := by
  induction new generalizing before with
  | nil => exact absurd rfl hne
  | cons c new ih =>
    obtain ⟨hc, hnew⟩ := List.forall_mem_cons.mp hnew
    rw [List.append_assoc, List.cons_append] at h
    refine (infix_of_infix_append_cons hc h).imp_right fun h => ?_
    -- the rest of the new text has nothing in front that could hold the pattern
    cases new with
    | nil => exact h
    | cons d new =>
      have hrest : pattern <:+: [] ++ (d :: new) ++ after := h
      rcases ih (by simp) hnew hrest with hnil | hafter
      · rw [List.infix_nil.mp hnil]
        exact List.nil_infix
      · exact hafter

/-! ### Replacing -/

/-- The text with the pattern replaced from the left: the first occurrence gives way to the new text
and the replacing goes on behind it. -/
inductive Replaced (pattern new : List Char) : (text result : List Char) → Prop where
  | absent {text : List Char} : ¬pattern <:+: text → Replaced pattern new text text
  | first {before after result : List Char} :
      IsFirst pattern before (before ++ pattern ++ after) → Replaced pattern new after result →
      Replaced pattern new (before ++ pattern ++ after) (before ++ new ++ result)

namespace Replaced

/-- There is one way to replace from the left. -/
theorem unique (h : Replaced pattern new text result) (h' : Replaced pattern new text result') :
    result = result' := by
  induction h generalizing result' with
  | absent hno =>
    cases h' with
    | absent => rfl
    | first => exact absurd (List.infix_append ..) hno
  | @first before after result hfirst _ ih =>
    generalize htext : before ++ pattern ++ after = text at hfirst h'
    cases h' with
    | absent hno =>
      rw [← htext] at hno
      exact absurd (List.infix_append ..) hno
    | @first before' after' result' hfirst' hlater' =>
      obtain rfl := hfirst.unique hfirst'
      obtain rfl := List.append_cancel_left htext
      rw [ih hlater']

/-- A text without the pattern stays as it is. -/
theorem eq_of_absent (hno : ¬pattern <:+: text) (h : Replaced pattern new text result) :
    result = text :=
  h.unique (.absent hno)

/-- The pattern at the beginning of a text. -/
theorem here (h : Replaced pattern new after result) :
    Replaced pattern new (pattern ++ after) (new ++ result) :=
  have hfirst : IsFirst pattern [] ([] ++ pattern ++ after) := .nil (List.prefix_append ..)
  .first hfirst h

/-- A character in front with which the pattern does not begin. -/
theorem cons {c : Char} (hno : ¬pattern <+: c :: text) (h : Replaced pattern new text result) :
    Replaced pattern new (c :: text) (c :: result) := by
  cases h with
  | absent habsent =>
    exact .absent fun hoccurs => (List.infix_cons_iff.mp hoccurs).elim hno habsent
  | @first before after result hfirst hlater =>
    have hfirst' : IsFirst pattern (c :: before) (c :: before ++ pattern ++ after) :=
      hfirst.cons hno
    exact .first hfirst' hlater

/-- **A new text that shares no character with the pattern never completes one**: the pattern does
not occur in the result. -/
theorem absent_result (hpattern : pattern ≠ []) (hne : new ≠ []) (hnew : ∀ c ∈ new, c ∉ pattern)
    (h : Replaced pattern new text result) : ¬pattern <:+: result := by
  induction h with
  | absent hno => exact hno
  | first hfirst _ ih =>
    intro hoccurs
    rcases infix_of_infix_append hne hnew hoccurs with hbefore | hresult
    · exact hfirst.absent_before hpattern hbefore
    · exact ih hresult

/-- What the occurrences that are replaced leave of the text are pieces without the pattern. -/
theorem exists_pieces (hpattern : pattern ≠ []) (h : Replaced pattern new text result) :
    ∃ piece pieces, (∀ p ∈ piece :: pieces, ¬pattern <:+: p) ∧
      text = pattern.intercalate (piece :: pieces) ∧
      result = new.intercalate (piece :: pieces) := by
  induction h with
  | @absent text hno => exact ⟨text, [], by simpa using hno, by simp, by simp⟩
  | @first before after result hfirst _ ih =>
    obtain ⟨piece, pieces, hno, hafter, hresult⟩ := ih
    refine ⟨before, piece :: pieces,
      List.forall_mem_cons.mpr ⟨hfirst.absent_before hpattern, hno⟩, ?_, ?_⟩
    · rw [List.intercalate_cons_cons, ← hafter]
    · rw [List.intercalate_cons_cons, ← hresult]

end Replaced

/-! ### Arguments -/

/-- The text is the template with every placeholder replaced by the number. The pieces that the
placeholders leave of the template hold no further one. -/
def Filled (number : Nat) (template text : String) : Prop :=
  ∃ pieces : List (List Char), (∀ piece ∈ pieces, ¬placeholder <:+: piece) ∧
    template.toList = placeholder.intercalate pieces ∧
    text.toList = (toString number).toList.intercalate pieces

/-- The argument is the template with the placeholder replaced from the left by the decimal digits
of the number. -/
def Substituted (number : Nat) (template argument : String) : Prop :=
  Replaced placeholder (Nat.toDigits 10 number) template.toList argument.toList

theorem placeholder_ne_nil : placeholder ≠ [] := by decide

/-- What is replaced from the left leaves pieces without a placeholder. -/
theorem Substituted.filled {number : Nat} {template argument : String}
    (h : Substituted number template argument) : Filled number template argument := by
  obtain ⟨piece, pieces, hno, htemplate, hargument⟩ := h.exists_pieces placeholder_ne_nil
  refine ⟨piece :: pieces, hno, htemplate, ?_⟩
  rw [hargument, Nat.toString_eq_repr, Nat.toList_repr]

/-- A template gives one argument for a display. -/
theorem Substituted.rightUnique (number : Nat) : Relator.RightUnique (Substituted number) :=
  fun _ _ _ h h' => String.toList_inj.mp (Replaced.unique h h')

/-- The placeholder holds no digit. -/
theorem digit_notMem_placeholder {number : Nat} :
    ∀ c ∈ Nat.toDigits 10 number, c ∉ placeholder := by
  intro c hc hmem
  have hno : placeholder.any Char.isDigit = false := by decide
  exact List.any_eq_false.mp hno c hmem (Count.isDigit_of_mem c hc)

theorem fillFrom_skip (number : List Char) (skip : Nat) (cs : List Char) :
    fillFrom number skip cs = fillFrom number 0 (cs.drop skip) := by
  induction cs generalizing skip with
  | nil => cases skip <;> simp [fillFrom]
  | cons c cs ih =>
    cases skip with
    | zero => rfl
    | succ skip => exact ih skip

/-- A whole placeholder is passed over at once. -/
theorem fillFrom_placeholder (number rest : List Char) :
    fillFrom number 0 (placeholder ++ rest) = number ++ fillFrom number 0 rest := by
  obtain ⟨c, cs, hplaceholder⟩ := List.exists_cons_of_ne_nil placeholder_ne_nil
  have hbegins : placeholder <+: c :: (cs ++ rest) := by
    rw [← List.cons_append, ← hplaceholder]
    exact List.prefix_append ..
  have hdrop : (cs ++ rest).drop (placeholder.length - 1) = rest := by
    rw [hplaceholder, List.length_cons, Nat.add_sub_cancel, List.drop_left]
  have htext : placeholder ++ rest = c :: (cs ++ rest) := by
    rw [hplaceholder, List.cons_append]
  rw [htext, fillFrom, if_pos (List.isPrefixOf_iff_prefix.mpr hbegins), fillFrom_skip, hdrop]

theorem fillFrom_cons (number : List Char) {c : Char} {cs : List Char}
    (hno : ¬placeholder <+: c :: cs) : fillFrom number 0 (c :: cs) = c :: fillFrom number 0 cs := by
  rw [fillFrom, if_neg (mt List.isPrefixOf_iff_prefix.mp hno)]

/-- By induction on the length, since the filling goes on behind a whole placeholder. -/
theorem fillFrom_replaced (number cs : List Char) :
    Replaced placeholder number cs (fillFrom number 0 cs) := by
  induction hlength : cs.length using Nat.strongRecOn generalizing cs with
  | _ length ih =>
    subst hlength
    cases cs with
    | nil => exact .absent (by decide)
    | cons c cs =>
      by_cases hbegins : placeholder <+: c :: cs
      · obtain ⟨rest, hrest⟩ := hbegins
        have hless : rest.length < (c :: cs).length := by
          have hpos := List.length_pos_of_ne_nil placeholder_ne_nil
          rw [← hrest, List.length_append]
          omega
        rw [← hrest, fillFrom_placeholder]
        exact (ih rest.length hless rest rfl).here
      · rw [fillFrom_cons number hbegins]
        exact (ih cs.length (Nat.lt_succ_self _) cs rfl).cons hbegins

theorem fill_substituted (number : Nat) (template : String) :
    Substituted number template (fill number template) := by
  rw [Substituted, fill, String.toList_ofList, Nat.toString_eq_repr, Nat.toList_repr]
  exact fillFrom_replaced ..

/-- No argument holds a placeholder. -/
theorem placeholder_not_infix_fill (number : Nat) (template : String) :
    ¬placeholder <:+: (fill number template).toList :=
  (fill_substituted number template).absent_result placeholder_ne_nil Nat.toDigits_ne_nil
    digit_notMem_placeholder

/-- An argument that is filled again, for whatever display, stays as it is. -/
@[simp] theorem fill_fill (number other : Nat) (template : String) :
    fill other (fill number template) = fill number template :=
  String.toList_inj.mp ((fill_substituted other (fill number template)).eq_of_absent
    (placeholder_not_infix_fill number template))

/-! ### Commands -/

theorem command_substituted (server : Command) (number : Nat) :
    List.Forall₂ (Substituted number) server.args (command server number).args :=
  List.forall₂_map_right_iff.mpr
    (List.forall₂_same.mpr fun template _ => fill_substituted number template)

theorem command_filled (server : Command) (number : Nat) :
    List.Forall₂ (Filled number) server.args (command server number).args :=
  (command_substituted server number).imp fun _ _ h => h.filled

/-- **Every placeholder of a command is filled in.** The arguments are the templates, each in its
place, with the placeholders replaced from the left, and no other arguments are that. None of them
holds a placeholder, so filling the command again, for whatever display, changes nothing. -/
theorem command_complete (server : Command) (number : Nat) :
    (∀ args, List.Forall₂ (Substituted number) server.args args ↔
      args = (command server number).args) ∧
    (∀ argument ∈ (command server number).args, ¬placeholder <:+: argument.toList) ∧
    ∀ other, command (command server number) other = command server number := by
  refine ⟨fun args => ⟨fun hargs => ?_, fun hargs => hargs ▸ command_substituted server number⟩,
    fun argument hargument => ?_, fun other => ?_⟩
  · exact List.right_unique_forall₂' (Substituted.rightUnique number) hargs
      (command_substituted server number)
  · obtain ⟨template, -, rfl⟩ := List.mem_map.mp hargument
    exact placeholder_not_infix_fill number template
  · simp [command]

example : fill 7 "\x7b\x7bdisplay\x7ddisplay\x7d" = "\x7b7display\x7d" := by decide +kernel

end ImageScoring.Template
