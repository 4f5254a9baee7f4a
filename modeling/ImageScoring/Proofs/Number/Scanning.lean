import ImageScoring.Proofs.Number.Numeral
import ImageScoring.Proofs.Utf8

/-!
# The number at the front is the longest one

`Prefix.decimal?` and `Prefix.hex?` read the number that stops, and `Prefix.scan?` reads the longest
numeral at the front of a byte string: its value and its length (`scan?_eq_some_iff`,
`scan?_eq_none_iff`). No two numerals are written alike (`text_injective`), so the longest is one.
-/

namespace ImageScoring.Numeral

open Prefix

/-! ### Values -/

def Power.exponent (p : Power decimal) : Int :=
  let power : Int := exponentValue p.digits
  if p.sign.negative then -power else power

/-- The power of ten behind the digits: the exponent, less the digits behind the point. -/
def Floating.shift (n : Floating decimal) : Int :=
  let shift : Int := -((n.mantissa.fraction.getD []).length : Int)
  match n.power with
  | none => shift
  | some p => shift + p.exponent

def Floating.decimalValue (n : Floating decimal) : Binary64 :=
  Prefix.decimalValue (n.mantissa.whole ++ n.mantissa.fraction.getD []) n.shift

/-- The digits of the mantissa, each added to what is before it. -/
def Mantissa.hexValue (m : Mantissa hexadecimal) : Binary64 :=
  hexFraction (hexWhole (m.whole.filterMap hexDigit?)) ((m.fraction.getD []).filterMap hexDigit?)

def Floating.hexValue (n : Floating hexadecimal) : Binary64 :=
  match n.power with
  | none => n.mantissa.hexValue
  | some p => n.mantissa.hexValue.mul (powerOfTwo p.sign.negative (saturatedValue p.digits))

def Magnitude.value : Magnitude → Binary64
  | .hex _ _ number => number.hexValue
  | .word letters _ => if letters.map lowerByte = ascii "nan" then .nan false else .infinity false
  | .decimal number => number.decimalValue

def value (n : Numeral) : Binary64 :=
  if n.sign.negative then n.magnitude.value.neg else n.magnitude.value

/-! ### The two readers -/

section Readers

variable {r : Radix} {n : Floating r} {rest : Bytes}

theorem Floating.takeWhile_text (h : n.Stops rest) :
    (n.text ++ rest).takeWhile r.isDigit = n.mantissa.whole := by
  rw [text, List.append_assoc]
  exact Mantissa.takeWhile_text (mantissa_stops h)

theorem Floating.fraction?_text (h : n.Stops rest) :
    fraction? (·.takeWhile r.isDigit) ((n.text ++ rest).drop n.mantissa.whole.length) =
      n.mantissa.fraction := by
  rw [text, List.append_assoc]
  exact Mantissa.fraction?_text (mantissa_stops h)

/-- Behind the mantissa stands the exponent. -/
theorem Floating.exponent?_drop (h : n.Stops rest) :
    exponent? r.letter ((n.text ++ rest).drop n.mantissa.text.length) =
      n.power.map fun p => ⟨p.sign.negative, p.digits, p.text.length⟩ := by
  rw [text, List.append_assoc, List.drop_left]
  exact exponent?_powerText h

theorem Mantissa.length_text (m : Mantissa r) :
    m.text.length =
      m.whole.length + (match m.fraction with | some _ => 1 | none => 0) +
        (m.fraction.getD []).length := by
  unfold text
  cases m.fraction with
  | none => simp [fractionText]
  | some digits =>
    simp only [fractionText, List.length_append, List.length_cons, Option.getD_some]
    omega

theorem Floating.length_text (n : Floating r) :
    n.text.length = n.mantissa.text.length + (n.power.map (·.text.length)).getD 0 := by
  unfold text
  cases n.power <;> simp

theorem Mantissa.length_ne_zero (m : Mantissa r) :
    m.whole.length + (m.fraction.getD []).length ≠ 0 := by
  rw [← List.length_append]
  exact fun h => m.ne_nil (List.length_eq_zero_iff.mp h)

end Readers

/-- **A decimal number is read where it stops.** -/
theorem decimal?_text {n : Floating decimal} {rest : Bytes} (h : n.Stops rest) :
    decimal? (n.text ++ rest) = some ⟨n.decimalValue, n.text.length⟩ := by
  have hwhole : (n.text ++ rest).takeWhile isDigit = n.mantissa.whole := n.takeWhile_text h
  have hfraction : fraction? (·.takeWhile isDigit)
      ((n.text ++ rest).drop n.mantissa.whole.length) = n.mantissa.fraction := n.fraction?_text h
  have hexponent := n.exponent?_drop h
  rw [show decimal.letter = 0x65 from rfl] at hexponent
  have hlength := n.mantissa.length_text
  have hne := n.mantissa.length_ne_zero
  unfold decimal?
  rw [hwhole]
  dsimp only
  rw [hfraction, Floating.decimalValue, Floating.shift, n.length_text]
  cases hf : n.mantissa.fraction
  all_goals
    simp only [hf, Option.getD_none, Option.getD_some] at hlength hne ⊢
    rw [if_neg hne, ← hlength, hexponent]
    cases n.power <;> rfl

theorem decimal?_eq_none {bs : Bytes} (h : Mantissa.Missing decimal bs) : decimal? bs = none := by
  obtain ⟨hwhole, hfraction⟩ := h
  change bs.takeWhile isDigit = [] at hwhole
  change ∀ digits, fraction? (·.takeWhile isDigit) bs = some digits → digits = [] at hfraction
  unfold decimal?
  rw [hwhole]
  dsimp only
  rw [List.length_nil, List.drop_zero]
  cases hf : fraction? (·.takeWhile isDigit) bs with
  | none => rfl
  | some digits => rw [hfraction digits hf]; rfl

theorem length_filterMap_hexDigit? {digits : Bytes}
    (h : ∀ b ∈ digits, hexadecimal.isDigit b = true) :
    (digits.filterMap hexDigit?).length = digits.length :=
  List.filterMap_length_eq_length.mpr h

theorem hexDigits_eq (bs : Bytes) :
    hexDigits bs = (bs.takeWhile hexadecimal.isDigit).filterMap hexDigit? := rfl

theorem fraction?_hexDigits (bs : Bytes) :
    fraction? hexDigits bs =
      (fraction? (·.takeWhile hexadecimal.isDigit) bs).map (·.filterMap hexDigit?) := by
  unfold fraction?
  split <;> rfl

/-- **A hexadecimal number is read where it stops.** -/
theorem hex?_text {n : Floating hexadecimal} {rest : Bytes} (h : n.Stops rest) :
    hex? (n.text ++ rest) = some ⟨n.hexValue, n.text.length⟩ := by
  have hwhole : hexDigits (n.text ++ rest) = n.mantissa.whole.filterMap hexDigit? := by
    rw [hexDigits_eq, n.takeWhile_text h]
  have hfraction : fraction? hexDigits ((n.text ++ rest).drop n.mantissa.whole.length) =
      n.mantissa.fraction.map (·.filterMap hexDigit?) := by
    rw [fraction?_hexDigits, n.fraction?_text h]
  have hexponent := n.exponent?_drop h
  rw [show hexadecimal.letter = 0x70 from rfl] at hexponent
  have hlength := n.mantissa.length_text
  have hne := n.mantissa.length_ne_zero
  have hdigits := n.mantissa.isDigit_of_mem_fraction
  unfold hex?
  rw [hwhole]
  dsimp only
  rw [length_filterMap_hexDigit? n.mantissa.isDigit_of_mem_whole, hfraction, Floating.hexValue,
    Mantissa.hexValue, n.length_text]
  cases hf : n.mantissa.fraction with
  | none =>
    simp only [hf, Option.getD_none, Option.map_none, List.length_nil, Nat.add_zero]
      at hlength hne ⊢
    rw [if_neg hne, ← hlength, hexponent]
    cases n.power <;> rfl
  | some digits =>
    simp only [hf, Option.getD_some, Option.map_some] at hdigits hlength hne ⊢
    rw [length_filterMap_hexDigit? hdigits, if_neg hne, ← hlength, hexponent]
    cases n.power <;> rfl

theorem hex?_eq_none {bs : Bytes} (h : Mantissa.Missing hexadecimal bs) : hex? bs = none := by
  obtain ⟨hwhole, hfraction⟩ := h
  unfold hex?
  rw [hexDigits_eq, hwhole]
  dsimp only
  rw [List.filterMap_nil, List.length_nil, List.drop_zero, fraction?_hexDigits]
  cases hf : fraction? (·.takeWhile hexadecimal.isDigit) bs with
  | none => rfl
  | some digits => rw [hfraction digits hf]; rfl

/-! ### Magnitudes -/

/-- Of the texts of a sort, that of `a` is the longest at the front of a byte string. -/
structure Longest {α : Type} (text : α → Bytes) (a : α) (bs : Bytes) : Prop where
  front : text a <+: bs
  length_le : ∀ b, text b <+: bs → (text b).length ≤ (text a).length

theorem hasWord_iff {word bs : Bytes} :
    hasWord word bs = true ↔ ∃ letters, letters <+: bs ∧ letters.map lowerByte = word := by
  rw [hasWord, beq_iff_eq]
  constructor
  · exact fun h => ⟨bs.take word.length, List.take_prefix _ _, h⟩
  · rintro ⟨letters, ⟨rest, rfl⟩, rfl⟩
    rw [List.length_map, List.take_left]

/-- A `0x` at the front, in either case. -/
theorem hasWord_zero_x_iff {bs : Bytes} :
    hasWord (ascii "0x") bs = true ↔
      ∃ mark tail, bs = 0x30 :: mark :: tail ∧ lowerByte mark = 0x78 := by
  have hword : ascii "0x" = [0x30, 0x78] := rfl
  rw [hasWord_iff, hword]
  constructor
  · rintro ⟨letters, ⟨tail, rfl⟩, h⟩
    obtain ⟨zero, rest, rfl, hzero, hrest⟩ := List.map_eq_cons_iff.mp h
    obtain ⟨mark, more, rfl, hmark, hmore⟩ := List.map_eq_cons_iff.mp hrest
    obtain rfl := List.map_eq_nil_iff.mp hmore
    refine ⟨mark, tail, ?_, hmark⟩
    rw [eq_of_lowerByte_eq (by decide) hzero]
    rfl
  · rintro ⟨mark, tail, rfl, hmark⟩
    exact ⟨[0x30, mark], ⟨tail, rfl⟩, by rw [List.map_cons, List.map_cons, hmark]; rfl⟩

/-- A number begins with a digit or with a point. -/
theorem Floating.exists_cons {r : Radix} (n : Floating r) :
    ∃ b tail, n.text = b :: tail ∧ (r.isDigit b = true ∨ b = 0x2E) := by
  have hall := n.mantissa.isDigit_of_mem_whole
  have hne := n.mantissa.ne_nil
  unfold text Mantissa.text
  cases hw : n.mantissa.whole with
  | cons b whole =>
    rw [hw] at hall
    exact ⟨b, _, rfl, .inl (hall b List.mem_cons_self)⟩
  | nil =>
    cases hf : n.mantissa.fraction with
    | none => simp [hw, hf] at hne
    | some digits => exact ⟨0x2E, _, rfl, .inr rfl⟩

/-- A word begins with one of two letters. -/
theorem exists_cons_of_mem_words {letters : Bytes} (h : letters.map lowerByte ∈ words) :
    ∃ b tail, letters = b :: tail ∧ (lowerByte b = 0x69 ∨ lowerByte b = 0x6E) := by
  obtain - | ⟨b, tail⟩ := letters
  · exact absurd h (by decide)
  · refine ⟨b, tail, rfl, ?_⟩
    have hwords : words = [[0x69, 0x6E, 0x66, 0x69, 0x6E, 0x69, 0x74, 0x79], [0x69, 0x6E, 0x66],
      [0x6E, 0x61, 0x6E]] := rfl
    rw [hwords, List.map_cons] at h
    simp only [List.mem_cons, List.cons.injEq, List.not_mem_nil, or_false] at h
    rcases h with h | h | h
    · exact .inl h.1
    · exact .inl h.1
    · exact .inr h.1

/-- What begins a magnitude is a digit, a point, or a letter of a word. -/
theorem Magnitude.exists_cons (m : Magnitude) :
    ∃ b tail, m.text = b :: tail ∧
      ((0x30 ≤ b.toNat ∧ b.toNat ≤ 0x39) ∨ b = 0x2E ∨ lowerByte b = 0x69 ∨ lowerByte b = 0x6E) := by
  cases m with
  | hex mark hmark number => exact ⟨0x30, _, rfl, .inl (by decide)⟩
  | word letters hmem =>
    obtain ⟨b, tail, hletters, hb⟩ := exists_cons_of_mem_words hmem
    exact ⟨b, tail, hletters, .inr (.inr hb)⟩
  | decimal number =>
    obtain ⟨b, tail, htext, hb | hb⟩ := number.exists_cons
    · exact ⟨b, tail, htext, .inl (isDigit_iff.mp hb)⟩
    · exact ⟨b, tail, htext, .inr (.inl hb)⟩

/-- A magnitude that begins with a letter is a word. -/
theorem Magnitude.exists_word {m : Magnitude} {b : UInt8} {tail : Bytes}
    (hb : lowerByte b = 0x69 ∨ lowerByte b = 0x6E) (hp : m.text <+: b :: tail) :
    ∃ letters hmem, m = .word letters hmem := by
  cases m with
  | word letters hmem => exact ⟨letters, hmem, rfl⟩
  | hex mark hmark number =>
    obtain rfl : 0x30 = b := (List.cons_prefix_cons.mp hp).1
    exact absurd hb (by decide)
  | decimal number =>
    obtain ⟨c, rest, htext, hc⟩ := number.exists_cons
    rw [text, htext] at hp
    obtain rfl : c = b := (List.cons_prefix_cons.mp hp).1
    have hletter := hb.imp (lowerByte_eq_iff (by decide) (by decide)).mp
      (lowerByte_eq_iff (by decide) (by decide)).mp
    simp only [UInt8.reduceToNat] at hletter
    rcases hc with hc | rfl
    · have := isDigit_iff.mp hc
      omega
    · exact absurd hletter (by decide)

/-- The digit zero. -/
def zeroDigit : Floating decimal where
  mantissa := ⟨[0x30], none, List.all_eq_true.mp rfl, nofun, by decide⟩
  power := none

theorem zeroDigit_stops {mark : UInt8} (hmark : lowerByte mark = 0x78) (tail : Bytes) :
    zeroDigit.Stops (mark :: tail) := by
  have h := (lowerByte_eq_iff (by decide) (by decide)).mp hmark
  simp only [UInt8.reduceToNat] at h
  refine ⟨?_, ?_⟩
  · rintro b hb
    obtain rfl : mark = b := Option.some.inj hb
    refine ⟨?_, fun _ => ?_⟩
    · rw [Bool.eq_false_iff, ne_eq, show decimal.isDigit = isDigit from rfl, isDigit_iff]
      omega
    · rintro rfl
      exact absurd h (by decide)
  · intro p hp
    obtain rfl : p.mark = mark := (List.cons_prefix_cons.mp hp).1
    rw [p.lowerByte_mark] at hmark
    exact absurd hmark (by decide)

/-- Of a `0x` a decimal number takes the zero alone. -/
theorem length_le_one_of_zero_x {mark : UInt8} (hmark : lowerByte mark = 0x78) {tail : Bytes}
    {n : Floating decimal} (hn : n.text <+: 0x30 :: mark :: tail) : n.text.length ≤ 1 :=
  Floating.length_le_of_stops (zeroDigit_stops hmark tail) hn

/-- Behind a `0x` the longest magnitude is the longest hexadecimal number, or the zero alone. -/
theorem magnitude?_of_zero_x {mark : UInt8} (hmark : lowerByte mark = 0x78) (tail : Bytes) :
    ∃ m : Magnitude, Longest Magnitude.text m (0x30 :: mark :: tail) ∧
      magnitude? (0x30 :: mark :: tail) = some ⟨m.value, m.text.length⟩ := by
  have hword : hasWord (ascii "0x") (0x30 :: mark :: tail) = true :=
    hasWord_zero_x_iff.mpr ⟨mark, tail, rfl, hmark⟩
  have hshort : ∀ n : Floating decimal, n.text <+: 0x30 :: mark :: tail → n.text.length ≤ 1 :=
    fun n hn => length_le_one_of_zero_x hmark hn
  have hletters : ∀ letters : Bytes, letters.map lowerByte ∈ words →
      ¬ letters <+: 0x30 :: mark :: tail := by
    intro letters hmem hp
    obtain ⟨b, rest, rfl, hb⟩ := exists_cons_of_mem_words hmem
    obtain rfl := (List.cons_prefix_cons.mp hp).1
    exact absurd hb (by decide)
  rw [magnitude?, if_pos hword, List.drop_succ_cons, List.drop_succ_cons, List.drop_zero]
  rcases Floating.exists_stops hexadecimal tail with ⟨n, rest, rfl, hn⟩ | hmissing
  · rw [hex?_text hn]
    refine ⟨.hex mark hmark n, ⟨⟨rest, rfl⟩, fun m hm => ?_⟩, rfl⟩
    cases m with
    | hex mark' hmark' n' =>
      have hp := (List.cons_prefix_cons.mp (List.cons_prefix_cons.mp hm).2).2
      have := Floating.length_le_of_stops hn hp
      simp only [Magnitude.text, List.length_cons]
      omega
    | word letters hmem => exact absurd hm (hletters letters hmem)
    | decimal n' =>
      have := hshort n' hm
      simp only [Magnitude.text, List.length_cons]
      omega
  · rw [hex?_eq_none hmissing]
    refine ⟨.decimal zeroDigit, ⟨⟨mark :: tail, rfl⟩, fun m hm => ?_⟩, ?_⟩
    · cases m with
      | hex mark' hmark' n' =>
        have hp := (List.cons_prefix_cons.mp (List.cons_prefix_cons.mp hm).2).2
        exact absurd hp (Floating.not_prefix_of_missing hmissing n')
      | word letters hmem => exact absurd hm (hletters letters hmem)
      | decimal n' => exact hshort n' hm
    · decide +kernel

/-- The longest word at the front is the longest magnitude. -/
theorem exists_longest_word {word bs : Bytes} (hmem : word ∈ words) (h : hasWord word bs = true)
    (hlongest : ∀ other ∈ words, hasWord other bs = true → other.length ≤ word.length) :
    ∃ m : Magnitude, Longest Magnitude.text m bs ∧ m.text.length = word.length ∧
      m.value = if word = ascii "nan" then .nan false else .infinity false := by
  obtain ⟨letters, hfront, rfl⟩ := hasWord_iff.mp h
  refine ⟨.word letters hmem, ⟨hfront, fun m hm => ?_⟩, (List.length_map _).symm, rfl⟩
  obtain ⟨b, tail, rfl, hb⟩ := exists_cons_of_mem_words hmem
  obtain ⟨rest, rfl⟩ := hfront
  obtain ⟨other, hother, rfl⟩ := Magnitude.exists_word hb hm
  have hle := hlongest _ hother (hasWord_iff.mpr ⟨other, hm, rfl⟩)
  rwa [List.length_map, List.length_map] at hle

theorem Floating.stops_nil {r : Radix} (n : Floating r) : n.Stops [] := by
  unfold Stops
  cases n.power with
  | some p => exact nofun
  | none => exact ⟨nofun, fun p hp => absurd (List.prefix_nil.mp hp) (List.cons_ne_nil _ _)⟩

theorem Floating.text_injective {r : Radix} : Function.Injective (Floating.text (r := r)) :=
  fun n n' h => eq_of_stops n.stops_nil n'.stops_nil (congrArg (· ++ []) h)

/-- No two magnitudes are written alike. -/
theorem Magnitude.text_injective : Function.Injective Magnitude.text := by
  have hword : ∀ {letters hmem m}, (Magnitude.word letters hmem).text = m.text →
      Magnitude.word letters hmem = m := by
    intro letters hmem m h
    obtain ⟨b, tail, rfl, hb⟩ := exists_cons_of_mem_words hmem
    have hfront : m.text <+: b :: tail := ⟨[], by rw [List.append_nil]; exact h.symm⟩
    obtain ⟨other, hother, rfl⟩ := Magnitude.exists_word hb hfront
    simp only [Magnitude.text] at h
    subst h
    rfl
  have hmixed : ∀ {mark} {hmark : lowerByte mark = 0x78} {number} {n : Floating Numeral.decimal},
      (Magnitude.hex mark hmark number).text ≠ n.text := by
    intro mark hmark number n h
    have hle := length_le_one_of_zero_x hmark ⟨[], by rw [List.append_nil]; exact h.symm⟩
    rw [← h, Magnitude.text, List.length_cons, List.length_cons] at hle
    omega
  intro m m' h
  cases m with
  | word letters hmem => exact hword h
  | hex mark hmark number =>
    cases m' with
    | word letters hmem => exact (hword h.symm).symm
    | hex mark' hmark' number' =>
      simp only [Magnitude.text, List.cons.injEq, true_and] at h
      obtain ⟨rfl, htext⟩ := h
      rw [Floating.text_injective htext]
    | decimal n => exact absurd h hmixed
  | decimal n =>
    cases m' with
    | word letters hmem => exact (hword h.symm).symm
    | hex mark' hmark' number' => exact absurd h.symm hmixed
    | decimal n' => rw [Floating.text_injective h]

/-- Without a `0x` and a word at the front a magnitude there is a decimal number. -/
theorem Magnitude.exists_decimal {m : Magnitude} {bs : Bytes} (hm : m.text <+: bs)
    (hzero : hasWord (ascii "0x") bs ≠ true) (hwords : ∀ word ∈ words, hasWord word bs ≠ true) :
    ∃ n : Floating Numeral.decimal, m = .decimal n := by
  cases m with
  | hex mark hmark number =>
    obtain ⟨rest, rfl⟩ := hm
    exact absurd (hasWord_zero_x_iff.mpr ⟨mark, number.text ++ rest, rfl, hmark⟩) hzero
  | word letters hmem => exact absurd (hasWord_iff.mpr ⟨letters, hm, rfl⟩) (hwords _ hmem)
  | decimal n => exact ⟨n, rfl⟩

/-- **The longest magnitude is found**, and where none is found there is none. -/
theorem magnitude?_cases (bs : Bytes) :
    (∃ m : Magnitude, Longest Magnitude.text m bs ∧
      magnitude? bs = some ⟨m.value, m.text.length⟩) ∨
    ((∀ m : Magnitude, ¬ m.text <+: bs) ∧ magnitude? bs = none) := by
  by_cases hzero : hasWord (ascii "0x") bs = true
  · obtain ⟨mark, tail, rfl, hmark⟩ := hasWord_zero_x_iff.mp hzero
    exact .inl (magnitude?_of_zero_x hmark tail)
  rw [magnitude?, if_neg hzero]
  by_cases hinfinity : hasWord (ascii "infinity") bs = true
  · have hlengths : ∀ word ∈ words, word.length ≤ (ascii "infinity").length := by decide
    obtain ⟨m, hm, hlength, hvalue⟩ := exists_longest_word (by decide) hinfinity
      fun word hword _ => hlengths word hword
    rw [if_pos hinfinity]
    exact .inl ⟨m, hm, by rw [hlength, hvalue]; rfl⟩
  rw [if_neg hinfinity]
  -- the other two words are of one length
  have hlengths : ∀ word ∈ words, hasWord word bs = true → word.length ≤ 3 := by
    intro word hword h
    have hcases : ∀ word ∈ words, word = ascii "infinity" ∨ word.length ≤ 3 := by decide
    rcases hcases word hword with rfl | hle
    · exact absurd h hinfinity
    · exact hle
  by_cases hinf : hasWord (ascii "inf") bs = true
  · obtain ⟨m, hm, hlength, hvalue⟩ := exists_longest_word (by decide) hinf hlengths
    rw [if_pos hinf]
    exact .inl ⟨m, hm, by rw [hlength, hvalue]; rfl⟩
  rw [if_neg hinf]
  by_cases hnan : hasWord (ascii "nan") bs = true
  · obtain ⟨m, hm, hlength, hvalue⟩ := exists_longest_word (by decide) hnan hlengths
    rw [if_pos hnan]
    exact .inl ⟨m, hm, by rw [hlength, hvalue]; rfl⟩
  rw [if_neg hnan]
  have hwords : ∀ word ∈ words, hasWord word bs ≠ true := by
    unfold words
    simp [hinfinity, hinf, hnan]
  rcases Floating.exists_stops decimal bs with ⟨n, rest, rfl, hn⟩ | hmissing
  · refine .inl ⟨.decimal n, ⟨⟨rest, rfl⟩, fun m hm => ?_⟩, decimal?_text hn⟩
    obtain ⟨n', rfl⟩ := Magnitude.exists_decimal hm hzero hwords
    exact Floating.length_le_of_stops hn hm
  · refine .inr ⟨fun m hm => ?_, decimal?_eq_none hmissing⟩
    obtain ⟨n, rfl⟩ := Magnitude.exists_decimal hm hzero hwords
    exact Floating.not_prefix_of_missing hmissing n hm

/-! ### Numerals -/

theorem Magnitude.unsigned (m : Magnitude) (rest : Bytes) : Unsigned (m.text ++ rest) := by
  obtain ⟨b, tail, htext, hb⟩ := m.exists_cons
  rw [htext]
  rintro c hc
  obtain rfl : b = c := Option.some.inj hc
  constructor <;> rintro rfl <;> exact absurd hb (by decide)

/-- A numeral behind a sign has that sign. -/
theorem prefix_append_iff {n : Numeral} {s : Sign} {tail : Bytes} (h : s = .none → Unsigned tail) :
    n.text <+: s.text ++ tail ↔ n.sign = s ∧ n.magnitude.text <+: tail := by
  constructor
  · rintro ⟨rest, heq⟩
    rw [text, List.append_assoc] at heq
    have hsign := Sign.eq_of_append (fun _ => n.magnitude.unsigned rest) h heq
    rw [hsign] at heq
    exact ⟨hsign, rest, List.append_cancel_left heq⟩
  · rintro ⟨rfl, rest, rfl⟩
    exact ⟨rest, List.append_assoc _ _ _⟩

/-- The number behind a sign takes the sign, and one octet more. -/
theorem scan?_append {s : Sign} {tail : Bytes} (h : s = .none → Unsigned tail) :
    scan? (s.text ++ tail) = (magnitude? tail).map fun scan =>
      ⟨if s.negative then scan.value.neg else scan.value, s.text.length + scan.length⟩ := by
  cases s with
  | plus =>
    cases hm : magnitude? tail <;> simp [Sign.text, scan?, hm, Sign.negative, Nat.add_comm]
  | minus =>
    cases hm : magnitude? tail <;> simp [Sign.text, scan?, hm, Sign.negative, Nat.add_comm]
  | none =>
    have hscan : scan? tail = magnitude? tail := by
      unfold scan?
      split
      · exact absurd rfl (h rfl 0x2D rfl).2
      · exact absurd rfl (h rfl 0x2B rfl).1
      · rfl
    cases hm : magnitude? tail <;> simp [Sign.text, hscan, hm, Sign.negative]

/-- **The longest numeral is found**, and where none is found there is none. -/
theorem scan?_cases (bs : Bytes) :
    (∃ n : Numeral, Longest text n bs ∧ scan? bs = some ⟨n.value, n.text.length⟩) ∨
    ((∀ n : Numeral, ¬ n.text <+: bs) ∧ scan? bs = none) := by
  obtain ⟨s, tail, rfl, hs⟩ := Sign.exists_append bs
  rw [scan?_append hs]
  rcases magnitude?_cases tail with ⟨m, hm, hscan⟩ | ⟨hnone, hscan⟩
  · left
    refine ⟨⟨s, m⟩, ⟨(prefix_append_iff hs).mpr ⟨rfl, hm.front⟩, fun n hn => ?_⟩, ?_⟩
    · obtain ⟨rfl, hp⟩ := (prefix_append_iff hs).mp hn
      have := hm.length_le n.magnitude hp
      simp only [text, List.length_append]
      omega
    · rw [hscan, Option.map_some, value, text, List.length_append]
  · right
    refine ⟨fun n hn => hnone n.magnitude ((prefix_append_iff hs).mp hn).2, ?_⟩
    rw [hscan, Option.map_none]

/-- **No two numerals are written alike.** -/
theorem text_injective : Function.Injective text := by
  intro n n' h
  have hsign : n.sign = n'.sign := Sign.eq_of_append (fun _ => n.magnitude.unsigned [])
    (fun _ => n'.magnitude.unsigned []) (by simpa [text] using h)
  rw [text, text, hsign] at h
  have hmagnitude := Magnitude.text_injective (List.append_cancel_left h)
  cases n
  cases n'
  cases hsign
  cases hmagnitude
  rfl

theorem Longest.eq {n n' : Numeral} {bs : Bytes} (h : Longest text n bs)
    (h' : Longest text n' bs) : n = n' := by
  have hlength := Nat.le_antisymm (h'.length_le n h.front) (h.length_le n' h'.front)
  exact text_injective ((List.prefix_of_prefix_length_le h.front h'.front hlength.le).eq_of_length
    hlength)

/-- **The longest numeral is found**: its value, and its length. -/
theorem scan?_eq_some_iff {bs : Bytes} {scan : Scan} :
    scan? bs = some scan ↔ ∃ n : Numeral, Longest text n bs ∧ scan = ⟨n.value, n.text.length⟩ := by
  rcases scan?_cases bs with ⟨n, hn, hscan⟩ | ⟨hnone, hscan⟩
  · rw [hscan]
    constructor
    · rintro h
      exact ⟨n, hn, (Option.some.inj h).symm⟩
    · rintro ⟨n', hn', rfl⟩
      rw [hn.eq hn']
  · rw [hscan]
    constructor
    · exact nofun
    · rintro ⟨n, hn, -⟩
      exact absurd hn.front (hnone n)

theorem scan?_eq_none_iff {bs : Bytes} :
    scan? bs = none ↔ ∀ n : Numeral, ¬ n.text <+: bs := by
  rcases scan?_cases bs with ⟨n, hn, hscan⟩ | ⟨hnone, hscan⟩
  · rw [hscan]
    exact ⟨nofun, fun h => absurd hn.front (h n)⟩
  · exact ⟨fun _ => hnone, fun _ => hscan⟩

end Numeral
end ImageScoring
