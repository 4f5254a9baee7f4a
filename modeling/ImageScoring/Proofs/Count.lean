import ImageScoring.Proofs.Utf8
import ImageScoring.Text.Count
import Mathlib.Data.List.TakeWhile

/-!
# Spelling lengths

`Spells text n` says which texts stand for the length `n`: digits, perhaps behind a plus sign and
between white space. `Count.ofLine?` reads exactly these texts (`ofLine?_eq_some_iff`), and the
decimal digits that `Count.line` writes are among them (`spells_line`). The first of these digits
spell another length, but not a length of nothing (`ofLine?_of_prefix`).
-/

namespace ImageScoring

namespace Text

/-! ### Trimming -/

theorem dropWhile_isBlank_append {before rest : List Char} (hb : ∀ c ∈ before, isBlank c = true)
    (hr : ∀ c ∈ rest.head?, isBlank c = false) : (before ++ rest).dropWhile isBlank = rest := by
  rw [List.dropWhile_append_of_pos hb]
  cases rest with
  | nil => rfl
  | cons c rest =>
    have hc := hr c rfl
    rw [List.dropWhile_cons_of_neg (by simp [hc])]

/-- Trimming takes away the white space around a text that has none in it. -/
theorem trim_append {before core after : List Char} (hb : ∀ c ∈ before, isBlank c = true)
    (hne : core ≠ []) (hc : ∀ c ∈ core, isBlank c = false) (ha : ∀ c ∈ after, isBlank c = true) :
    trim (before ++ core ++ after) = core := by
  have h1 : (before ++ (core ++ after)).dropWhile isBlank = core ++ after := by
    refine dropWhile_isBlank_append hb fun c h => hc c ?_
    obtain ⟨d, core, rfl⟩ := List.exists_cons_of_ne_nil hne
    exact List.mem_of_mem_head? h
  have h2 : (after.reverse ++ core.reverse).dropWhile isBlank = core.reverse := by
    refine dropWhile_isBlank_append (fun c h => ha c (List.mem_reverse.mp h)) fun c h => hc c ?_
    exact List.mem_reverse.mp (List.mem_of_mem_head? h)
  rw [trim, List.append_assoc, h1, List.reverse_append, h2, List.reverse_reverse]

/-- What trimming takes away is white space. -/
theorem exists_trim (cs : List Char) :
    ∃ before after, cs = before ++ trim cs ++ after ∧ (∀ c ∈ before, isBlank c = true) ∧
      ∀ c ∈ after, isBlank c = true := by
  have h1 := List.takeWhile_append_dropWhile (p := isBlank) (l := cs)
  have h2 := List.takeWhile_append_dropWhile (p := isBlank) (l := (cs.dropWhile isBlank).reverse)
  refine ⟨cs.takeWhile isBlank, ((cs.dropWhile isBlank).reverse.takeWhile isBlank).reverse, ?_,
    fun c h => List.mem_takeWhile_imp h, fun c h => List.mem_takeWhile_imp (List.mem_reverse.mp h)⟩
  rw [trim, List.append_assoc, ← List.reverse_append, h2, List.reverse_reverse, h1]

end Text

namespace Count

/-- A text that spells a length: a decimal number below the limit in UTF-8, with or without a plus
sign, and white space around it. -/
inductive Spells : Bytes → Nat → Prop where
  | intro {before sign digits after : List Char} {n : Nat} :
      (∀ c ∈ before, Text.isBlank c = true) → (sign = [] ∨ sign = ['+']) → digits ≠ [] →
      (∀ c ∈ digits, c.isDigit = true) → Nat.ofDigitChars 10 digits 0 = n → n < lengthLimit →
      (∀ c ∈ after, Text.isBlank c = true) →
      Spells (Utf8.encode (before ++ (sign ++ digits) ++ after)) n

theorem isDigit_iff {c : Char} : c.isDigit = true ↔ 0x30 ≤ c.toNat ∧ c.toNat ≤ 0x39 := by
  simp only [Char.isDigit, Bool.and_eq_true, decide_eq_true_eq, UInt32.le_iff_toNat_le, ge_iff_le]
  rfl

theorem isBlank_of_isDigit {c : Char} (h : c.isDigit = true) : Text.isBlank c = false := by
  rw [isDigit_iff] at h
  simp only [Text.isBlank, Bool.or_eq_false_iff, Bool.and_eq_false_iff, decide_eq_false_iff_not,
    beq_eq_false_iff_ne]
  omega

theorem digit?_eq (c : Char) :
    digit? c = if c.isDigit = true then some (c.toNat - '0'.toNat) else none := by
  unfold digit?
  congr 1
  rw [isDigit_iff, Char.le_def, Char.le_def, UInt32.le_iff_toNat_le, UInt32.le_iff_toNat_le]
  rfl

theorem digitsFrom?_eq_some_iff {acc n : Nat} {cs : List Char} :
    digitsFrom? acc cs = some n ↔
      (∀ c ∈ cs, c.isDigit = true) ∧ Nat.ofDigitChars 10 cs acc = n := by
  induction cs generalizing acc with
  | nil => simp [digitsFrom?]
  | cons c cs ih =>
    rw [digitsFrom?, digit?_eq, Nat.ofDigitChars_cons]
    by_cases hc : c.isDigit = true
    · simp [hc, ih]
    · simp [hc]

theorem digits?_eq_some_iff {n : Nat} {cs : List Char} :
    digits? cs = some n ↔
      cs ≠ [] ∧ (∀ c ∈ cs, c.isDigit = true) ∧ Nat.ofDigitChars 10 cs 0 = n := by
  cases cs with
  | nil => simp [digits?]
  | cons c cs =>
    rw [digits?, digitsFrom?_eq_some_iff]
    · simp
    · simp

/-- A number that takes all of a text: digits, behind a plus sign or not. -/
theorem read?_eq_some_iff {limit n : Nat} {cs : List Char} :
    read? limit cs = some n ↔
      ∃ sign digits, cs = sign ++ digits ∧ (sign = [] ∨ sign = ['+']) ∧ digits ≠ [] ∧
        (∀ c ∈ digits, c.isDigit = true) ∧ Nat.ofDigitChars 10 digits 0 = n ∧ n < limit := by
  unfold read?
  rw [Option.filter_eq_some_iff, decide_eq_true_eq]
  constructor
  · rintro ⟨h, hn⟩
    split at h
    · next rest =>
      obtain ⟨h1, h2, h3⟩ := digits?_eq_some_iff.mp h
      exact ⟨['+'], rest, rfl, .inr rfl, h1, h2, h3, hn⟩
    · obtain ⟨h1, h2, h3⟩ := digits?_eq_some_iff.mp h
      exact ⟨[], cs, rfl, .inl rfl, h1, h2, h3, hn⟩
  · rintro ⟨sign, digits, rfl, hs, h1, h2, h3, hn⟩
    refine ⟨?_, hn⟩
    have hd : digits? digits = some n := digits?_eq_some_iff.mpr ⟨h1, h2, h3⟩
    rcases hs with rfl | rfl
    · split
      · next rest heq =>
        -- a plus sign is no digit
        have := h2 '+' (by rw [show digits = '+' :: rest from heq]; simp)
        exact absurd this (by decide)
      · exact hd
    · exact hd

/-- **A line is read as a length exactly if it spells one.** -/
theorem ofLine?_eq_some_iff {line : Bytes} {n : Nat} : ofLine? line = some n ↔ Spells line n := by
  constructor
  · intro h
    unfold ofLine? at h
    split at h
    · next cs hcs =>
      obtain ⟨sign, digits, hcore, hs, h1, h2, h3, hn⟩ := read?_eq_some_iff.mp h
      obtain ⟨before, after, htrim, hb, ha⟩ := Text.exists_trim cs
      rw [Utf8.decode?_eq_ok_iff.mp hcs, htrim, hcore]
      exact .intro hb hs h1 h2 h3 hn ha
    · simp at h
  · rintro ⟨hb, hs, h1, h2, h3, hn, ha⟩
    next before sign digits after =>
    have hblank : ∀ c ∈ sign ++ digits, Text.isBlank c = false := by
      intro c hc
      rcases List.mem_append.mp hc with hc | hc
      · rcases hs with rfl | rfl
        · simp at hc
        · rw [List.mem_singleton.mp hc]
          decide
      · exact isBlank_of_isDigit (h2 c hc)
    have htrim := Text.trim_append hb (by simp [h1]) hblank ha
    rw [ofLine?, Utf8.decode?_eq_ok_iff.mpr rfl]
    dsimp only
    rw [htrim]
    exact read?_eq_some_iff.mpr ⟨sign, digits, rfl, hs, h1, h2, h3, hn⟩

/-! ### The decimal digits of a number -/

theorem encode_of_isDigit {cs : List Char} (h : ∀ c ∈ cs, c.isDigit = true) :
    Utf8.encode cs = cs.map fun c => UInt8.ofNat c.toNat := by
  refine Utf8.encode_of_ascii fun c hc => ?_
  have hdigit := isDigit_iff.mp (h c hc)
  omega

theorem isDigit_of_mem {n : Nat} : ∀ c ∈ Nat.toDigits 10 n, c.isDigit = true :=
  fun _ h => Nat.isDigit_of_mem_toDigits (by decide) (by decide) h

theorem line_eq (n : Nat) : line n = (Nat.toDigits 10 n).map fun c => UInt8.ofNat c.toNat := by
  rw [line, text, ascii, Nat.toString_eq_repr, Nat.toList_repr]

/-- The decimal digits of a number below the limit spell it. -/
theorem spells_line {n : Nat} (h : n < lengthLimit) : Spells (line n) n := by
  have hs : Spells (Utf8.encode ([] ++ ([] ++ Nat.toDigits 10 n) ++ [])) n :=
    .intro (by simp) (.inl rfl) Nat.toDigits_ne_nil isDigit_of_mem Nat.ofDigitChars_ten_toDigits h
      (by simp)
  rwa [List.nil_append, List.nil_append, List.append_nil, encode_of_isDigit isDigit_of_mem,
    ← line_eq] at hs

/-- The decimal digits of a number are octets of digits. -/
theorem toNat_of_mem_line {n : Nat} {b : UInt8} (h : b ∈ line n) :
    0x30 ≤ b.toNat ∧ b.toNat ≤ 0x39 := by
  rw [line_eq, List.mem_map] at h
  obtain ⟨c, hc, rfl⟩ := h
  have hd := isDigit_iff.mp (isDigit_of_mem c hc)
  rw [UInt8.toNat_ofNat']
  omega

/-! ### Lengths that are cut off -/

/-- The first digits of a number are a number that is not larger, and is not zero. -/
theorem ofDigitChars_of_prefix {n : Nat} {digits : List Char} (hne : digits ≠ [])
    (hp : digits <+: Nat.toDigits 10 n) (hcut : digits ≠ Nat.toDigits 10 n) :
    0 < Nat.ofDigitChars 10 digits 0 ∧ Nat.ofDigitChars 10 digits 0 ≤ n := by
  induction n using Nat.strong_induction_on with
  | _ n ih =>
    by_cases hn : n < 10
    · rw [Nat.toDigits_of_lt_base hn] at hp hcut
      obtain ⟨d, digits, rfl⟩ := List.exists_cons_of_ne_nil hne
      obtain ⟨rfl, hnil⟩ := List.cons_prefix_cons.mp hp
      rw [List.prefix_nil.mp hnil] at hcut
      exact absurd rfl hcut
    · have hlast := Nat.toDigits_of_base_le (b := 10) (by decide) (Nat.le_of_not_lt hn)
      rw [hlast] at hp hcut
      have hp' := (List.prefix_concat_iff.mp hp).resolve_left hcut
      by_cases hwhole : digits = Nat.toDigits 10 (n / 10)
      · rw [hwhole, Nat.ofDigitChars_ten_toDigits]
        omega
      · obtain ⟨hpos, hle⟩ := ih (n / 10) (by omega) hp' hwhole
        omega

/-- The first digits of a length are another length, and not that of nothing. -/
theorem ofLine?_of_prefix {n : Nat} {part : Bytes} (hn : n < lengthLimit) (hne : part ≠ [])
    (hp : part <+: line n) (hcut : part ≠ line n) : ∃ m, ofLine? part = some m ∧ 0 < m := by
  rw [line_eq] at hp hcut
  obtain ⟨digits, hdigits, rfl⟩ : ∃ digits, digits <+: Nat.toDigits 10 n ∧
      part = digits.map fun c => UInt8.ofNat c.toNat :=
    ⟨(Nat.toDigits 10 n).take part.length, List.take_prefix _ _, by
      rw [List.map_take]
      exact List.prefix_iff_eq_take.mp hp⟩
  have hall : ∀ c ∈ digits, c.isDigit = true := fun c hc => isDigit_of_mem c (hdigits.subset hc)
  have hne' : digits ≠ [] := by
    rintro rfl
    exact hne rfl
  obtain ⟨hpos, hle⟩ := ofDigitChars_of_prefix hne' hdigits (by rintro rfl; exact hcut rfl)
  have hspells : Spells (Utf8.encode ([] ++ ([] ++ digits) ++ [])) (Nat.ofDigitChars 10 digits 0) :=
    .intro (by simp) (.inl rfl) hne' hall rfl (by omega) (by simp)
  rw [List.nil_append, List.nil_append, List.append_nil, encode_of_isDigit hall] at hspells
  exact ⟨_, ofLine?_eq_some_iff.mpr hspells, hpos⟩

end Count
end ImageScoring
