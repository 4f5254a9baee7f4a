import ImageScoring.Proofs.Number.Parsing

/-!
# The number of a result

A result is text, what is no UTF-8 in it replaced, and its number stands behind the ASCII blanks at
its front. Numerals are ASCII, so the longest of them ends between two characters, and nothing that
is replaced is part of it: `Prefix.value` may look at the octets as they are (`value_cases`).

`longest_found` says what the scanner does with every text, and `Prefix.value` with every result.
-/

namespace ImageScoring.Text

/-- The characters that may stand before a number. -/
def isAsciiBlankChar (c : Char) : Bool :=
  c == ' ' || c == '\t' || c == '\n' || c == '\x0C' || c == '\r'

theorem isAsciiBlank_ofNat {c : Char} (hc : c.toNat < 0x80) :
    isAsciiBlank (UInt8.ofNat c.toNat) = isAsciiBlankChar c := by
  have hbyte := Utf8.toNat_ofNat_of_lt (n := c.toNat) (by omega)
  rw [Bool.eq_iff_iff]
  simp only [isAsciiBlank, isAsciiBlankChar, Bool.or_eq_true, beq_iff_eq, ← UInt8.toNat_inj,
    ← Char.toNat_inj, hbyte]
  rfl

/-- What is not ASCII is no blank. -/
theorem isAsciiBlank_of_le {b : UInt8} (hb : 0x80 ≤ b.toNat) : isAsciiBlank b = false := by
  simp only [isAsciiBlank, Bool.or_eq_false_iff, beq_eq_false_iff_ne, ne_eq, ← UInt8.toNat_inj,
    UInt8.reduceToNat]
  omega

theorem isAsciiBlankChar_of_le {c : Char} (hc : 0x80 ≤ c.toNat) : isAsciiBlankChar c = false := by
  simp only [isAsciiBlankChar, Bool.or_eq_false_iff, beq_eq_false_iff_ne, ne_eq, ← Char.toNat_inj]
  refine ⟨⟨⟨⟨?_, ?_⟩, ?_⟩, ?_⟩, ?_⟩ <;> rintro h <;> rw [h] at hc <;> exact absurd hc (by decide)

/-- Skipping blanks is the same for characters and for their octets. -/
theorem dropWhile_encode (cs : List Char) :
    (Utf8.encode cs).dropWhile isAsciiBlank = Utf8.encode (cs.dropWhile isAsciiBlankChar) := by
  induction cs with
  | nil => rfl
  | cons c cs ih =>
    by_cases hc : c.toNat < 0x80
    · rw [Utf8.encode_cons, Utf8.encodeChar_of_lt hc, List.singleton_append, List.dropWhile_cons,
        List.dropWhile_cons, isAsciiBlank_ofNat hc]
      split
      · exact ih
      · rw [Utf8.encode_cons, Utf8.encodeChar_of_lt hc, List.singleton_append]
    · obtain ⟨b, bs, hb⟩ := List.exists_cons_of_ne_nil (Utf8.encodeChar_ne_nil c)
      have hle := Utf8.le_of_mem_encodeChar (Nat.le_of_not_lt hc) b
        (by rw [hb]; exact List.mem_cons_self)
      rw [List.dropWhile_cons_of_neg (by simp [isAsciiBlankChar_of_le (Nat.le_of_not_lt hc)]),
        Utf8.encode_cons, hb, List.cons_append,
        List.dropWhile_cons_of_neg (by simp [isAsciiBlank_of_le hle])]

/-- Blanks are ASCII, so skipping them leaves less of the ASCII octets at the front. -/
theorem takeWhile_isAscii_dropWhile (bs : Bytes) :
    (bs.dropWhile isAsciiBlank).takeWhile Utf8.isAscii =
      (bs.takeWhile Utf8.isAscii).dropWhile isAsciiBlank := by
  induction bs with
  | nil => rfl
  | cons b bs ih =>
    by_cases hb : isAsciiBlank b = true
    · have hascii : Utf8.isAscii b = true := by
        rw [Utf8.isAscii, decide_eq_true_eq]
        by_contra hle
        rw [isAsciiBlank_of_le (Nat.le_of_not_lt hle)] at hb
        cases hb
      rw [List.dropWhile_cons_of_pos hb, List.takeWhile_cons_of_pos hascii,
        List.dropWhile_cons_of_pos hb, ih]
    · rw [List.dropWhile_cons_of_neg hb, List.takeWhile_cons]
      split
      · rw [List.dropWhile_cons_of_neg hb]
      · rfl

end Text

namespace Numeral

open Prefix

/-! ### Numerals are ASCII -/

theorem Sign.text_isAscii (s : Sign) : ∀ b ∈ s.text, b.toNat < 0x80 := by
  cases s <;> simp [Sign.text]

theorem Mantissa.text_isAscii {r : Radix} (m : Mantissa r) : ∀ b ∈ m.text, b.toNat < 0x80 := by
  have hdigits := m.isDigit_of_mem_fraction
  intro b hb
  rcases List.mem_append.mp hb with hb | hb
  · exact r.isAscii_of_isDigit b (m.isDigit_of_mem_whole b hb)
  · cases hf : m.fraction with
    | none => rw [hf] at hb; cases hb
    | some digits =>
      rw [hf] at hb hdigits
      rcases List.mem_cons.mp hb with rfl | hb
      · decide
      · exact r.isAscii_of_isDigit b (hdigits b hb)

theorem Power.text_isAscii {r : Radix} (p : Power r) : ∀ b ∈ p.text, b.toNat < 0x80 := by
  intro b hb
  rcases List.mem_cons.mp hb with rfl | hb
  · exact Radix.isAscii_of_mark p.lowerByte_mark
  rcases List.mem_append.mp hb with hb | hb
  · exact p.sign.text_isAscii b hb
  · have := isDigit_iff.mp (p.isDigit_of_mem b hb)
    omega

theorem Floating.text_isAscii {r : Radix} (n : Floating r) : ∀ b ∈ n.text, b.toNat < 0x80 := by
  intro b hb
  rcases List.mem_append.mp hb with hb | hb
  · exact n.mantissa.text_isAscii b hb
  · cases hp : n.power with
    | none => rw [hp] at hb; cases hb
    | some p => rw [hp] at hb; exact p.text_isAscii b hb

theorem Magnitude.text_isAscii (m : Magnitude) : ∀ b ∈ m.text, b.toNat < 0x80 := by
  intro b hb
  cases m with
  | decimal n => exact n.text_isAscii b hb
  | hex mark hmark n =>
    rcases List.mem_cons.mp hb with rfl | hb
    · decide
    rcases List.mem_cons.mp hb with rfl | hb
    · have h := (lowerByte_eq_iff (by decide) (by decide)).mp hmark
      simp only [UInt8.reduceToNat] at h
      omega
    · exact n.text_isAscii b hb
  | word letters hmem =>
    have hwords : (words.all fun word => word.all fun c => c.toNat < 0x7B) = true := by decide
    simp only [List.all_eq_true, decide_eq_true_eq] at hwords
    have hlow := hwords _ hmem _ (List.mem_map_of_mem hb)
    by_contra hhigh
    rw [lowerByte, if_neg] at hlow
    · omega
    · simp only [Bool.and_eq_true, decide_eq_true_eq, UInt8.le_iff_toNat_le, UInt8.reduceToNat]
      omega

theorem text_isAscii (n : Numeral) : ∀ b ∈ n.text, b.toNat < 0x80 := by
  intro b hb
  rcases List.mem_append.mp hb with hb | hb
  · exact n.sign.text_isAscii b hb
  · exact n.magnitude.text_isAscii b hb

/-- Only the ASCII octets at the front decide which numerals stand there. -/
theorem prefix_takeWhile_isAscii_iff {n : Numeral} {bs : Bytes} :
    n.text <+: bs.takeWhile Utf8.isAscii ↔ n.text <+: bs :=
  ⟨fun h => h.trans (List.takeWhile_prefix _),
    prefix_takeWhile fun b hb => decide_eq_true (n.text_isAscii b hb)⟩

theorem longest_takeWhile_isAscii_iff {n : Numeral} {bs : Bytes} :
    Longest text n (bs.takeWhile Utf8.isAscii) ↔ Longest text n bs :=
  ⟨fun h => ⟨prefix_takeWhile_isAscii_iff.mp h.front,
      fun m hm => h.length_le m (prefix_takeWhile_isAscii_iff.mpr hm)⟩,
    fun h => ⟨prefix_takeWhile_isAscii_iff.mpr h.front,
      fun m hm => h.length_le m (prefix_takeWhile_isAscii_iff.mp hm)⟩⟩

theorem scan?_takeWhile_isAscii (bs : Bytes) : scan? (bs.takeWhile Utf8.isAscii) = scan? bs := by
  rcases scan?_cases bs with ⟨n, hn, hscan⟩ | ⟨hnone, hscan⟩
  · rw [hscan]
    exact scan?_eq_some_iff.mpr ⟨n, longest_takeWhile_isAscii_iff.mpr hn, rfl⟩
  · rw [hscan]
    exact scan?_eq_none_iff.mpr fun n hn => hnone n (prefix_takeWhile_isAscii_iff.mp hn)

/-! ### Results -/

/-- The text of a result, what is no UTF-8 in it replaced, without the blanks at its front. -/
def resultText (bs : Bytes) : List Char :=
  (Utf8.decodeLossy bs).dropWhile Text.isAsciiBlankChar

/-- Replacing what is no UTF-8 changes no number. -/
theorem scan?_resultText (bs : Bytes) :
    scan? (Utf8.encode (resultText bs)) = scan? (bs.dropWhile Text.isAsciiBlank) := by
  rw [resultText, ← Text.dropWhile_encode, ← scan?_takeWhile_isAscii,
    Text.takeWhile_isAscii_dropWhile, Utf8.takeWhile_isAscii_encode_decodeLossy,
    ← Text.takeWhile_isAscii_dropWhile, scan?_takeWhile_isAscii]

/-- A result's number is the one at the front of its text, and zero if no numeral stands there. -/
theorem value_cases (bs : Bytes) :
    (∃ scan, scan? (Utf8.encode (resultText bs)) = some scan ∧ Prefix.value bs = scan.value) ∨
    ((∀ n : Numeral, ¬ n.text <+: Utf8.encode (resultText bs)) ∧ Prefix.value bs = .zero) := by
  rw [← scan?_eq_none_iff, Prefix.value, ← scan?_resultText]
  cases hscan : scan? (Utf8.encode (resultText bs)) with
  | none => exact .inr ⟨rfl, rfl⟩
  | some scan => exact .inl ⟨scan, rfl, rfl⟩

/-- The first `length` octets of a text are ASCII characters, and what is left behind them is
characters, too. -/
def CutsAt (text : String) (length : Nat) : Prop :=
  ∃ front rest : List Char, text.toList = front ++ rest ∧ (∀ c ∈ front, c.toNat < 0x80) ∧
    Utf8.encode front = (Utf8.ofText text).take length ∧
    Utf8.encode rest = (Utf8.ofText text).drop length

theorem cutsAt_of_prefix {n : Numeral} {text : String} (h : n.text <+: Utf8.ofText text) :
    CutsAt text n.text.length := by
  obtain ⟨front, rest, hsplit, hfront, hascii⟩ := Utf8.exists_of_prefix_encode n.text_isAscii h
  refine ⟨front, rest, hsplit, hascii, ?_, ?_⟩
  · rw [Utf8.ofText, hsplit, Utf8.encode_append, hfront, List.take_left]
  · rw [Utf8.ofText, hsplit, Utf8.encode_append, hfront, List.drop_left]

/-- **The longest numeral is found.** In a text nothing is found exactly if no numeral stands at its
front; otherwise the length is that of the longest numeral there, whose octets are ASCII characters.
What is cut off as a decimal number the standard library accepts. And a result is zero without a
number only if no numeral stands at the front of its text. -/
theorem longest_found :
    (∀ text : String,
      (scan? (Utf8.ofText text) = none ↔ ∀ n : Numeral, ¬ n.text <+: Utf8.ofText text) ∧
      ∀ scan, scan? (Utf8.ofText text) = some scan →
        (∃ n : Numeral, Longest Numeral.text n (Utf8.ofText text) ∧
          scan.length = n.text.length) ∧
        CutsAt text scan.length) ∧
    (∀ bs scan, decimal? bs = some scan → parse? (bs.take scan.length) = some scan.value) ∧
    ∀ bs,
      (∃ scan, scan? (Utf8.encode (resultText bs)) = some scan ∧ Prefix.value bs = scan.value) ∨
      ((∀ n : Numeral, ¬ n.text <+: Utf8.encode (resultText bs)) ∧ Prefix.value bs = .zero) := by
  refine ⟨fun text => ⟨scan?_eq_none_iff, fun scan hscan => ?_⟩, fun bs scan => parse?_take,
    value_cases⟩
  obtain ⟨n, hn, rfl⟩ := scan?_eq_some_iff.mp hscan
  exact ⟨⟨n, hn, rfl⟩, cutsAt_of_prefix hn.front⟩

/-- Of a number with an unfinished exponent and a letter that is not ASCII behind it. -/
theorem unfinished_exponent_left :
    ∃ scan, scan? (Utf8.ofText "-12.5e+é") = some scan ∧ scan.length = 5 ∧
      CutsAt "-12.5e+é" scan.length ∧ parse? (ascii "12.5") = some scan.value.neg := by
  have hscan : ∃ scan, scan? (Utf8.ofText "-12.5e+é") = some scan ∧ scan.length = 5 ∧
      decimal? (ascii "12.5e+") = some ⟨scan.value.neg, 4⟩ := by
    refine ⟨⟨.neg (.ofFraction false 125 10), 5⟩, ?_⟩
    decide +kernel
  obtain ⟨scan, hscan, hlength, hdecimal⟩ := hscan
  exact ⟨scan, hscan, hlength, ((longest_found.1 _).2 scan hscan).2,
    longest_found.2.1 _ _ hdecimal⟩

end Numeral
end ImageScoring
