import ImageScoring.Proofs.Number.Scanning

/-!
# Reading a whole text as a number

The standard library reads a number only if it takes the whole of a text: `parse?` cuts the text at
its sign, its digits, its point and the letter of its exponent, and refuses it when anything is
missing or left over. It accepts the numerals that are not hexadecimal, and nothing else
(`parse?_eq_some_iff`). So what `Prefix.decimal?` cuts off is always accepted, with the value that
`Prefix.decimal?` gives it (`parse?_take`).
-/

namespace ImageScoring.Numeral

open Prefix

/-! ### The parser -/

/-- The power of ten that a whole text gives as an exponent; an empty text gives none. -/
def parsePower? : Bytes → Option Int
  | [] => some 0
  | mark :: rest =>
    let (negative, digits) := match rest with
      | 0x2D :: digits => (true, digits)
      | 0x2B :: digits => (false, digits)
      | digits => (false, digits)
    if lowerByte mark != 0x65 || digits.isEmpty || !digits.all isDigit then none
    else
      let power : Int := exponentValue digits
      some (if negative then -power else power)

/-- The decimal number that is the whole of a text. -/
def parseNumber? (text : Bytes) : Option Binary64 :=
  let whole := text.takeWhile isDigit
  let rest := text.dropWhile isDigit
  match fraction? id rest with
  | some rest =>
    let fraction := rest.takeWhile isDigit
    if whole.isEmpty && fraction.isEmpty then none
    else
      (parsePower? (rest.dropWhile isDigit)).map fun power =>
        Prefix.decimalValue (whole ++ fraction) (-(fraction.length : Int) + power)
  | none =>
    if whole.isEmpty then none
    else (parsePower? rest).map fun power => Prefix.decimalValue whole power

/-- The word or the decimal number that is the whole of a text. -/
def parseMagnitude? (text : Bytes) : Option Binary64 :=
  let word := text.map lowerByte
  if word = ascii "infinity" ∨ word = ascii "inf" then some (.infinity false)
  else if word = ascii "nan" then some (.nan false)
  else parseNumber? text

/-- The number that is the whole of a text. -/
def parse? (text : Bytes) : Option Binary64 :=
  match text with
  | 0x2D :: rest => (parseMagnitude? rest).map Binary64.neg
  | 0x2B :: rest => parseMagnitude? rest
  | _ => parseMagnitude? text

/-! ### Exponents -/

theorem parsePower?_eq (mark : UInt8) {s : Sign} {digits : Bytes}
    (h : s = .none → Unsigned digits) :
    parsePower? (mark :: (s.text ++ digits)) =
      if lowerByte mark != 0x65 || digits.isEmpty || !digits.all isDigit then none
      else some (if s.negative then -(exponentValue digits : Int) else exponentValue digits) := by
  cases s with
  | plus => rfl
  | minus => rfl
  | none =>
    have hne : ∀ b rest, digits = b :: rest → b ≠ 0x2B ∧ b ≠ 0x2D := by
      rintro b rest rfl
      exact h rfl b rfl
    rw [Sign.text, List.nil_append, parsePower?]
    · rfl
    · exact fun rest heq => (hne _ rest heq).2 rfl
    · exact fun rest heq => (hne _ rest heq).1 rfl

theorem parsePower?_text (p : Power decimal) : parsePower? p.text = some p.exponent := by
  have hunsigned := p.unsigned_digits []
  rw [List.append_nil] at hunsigned
  have hall : p.digits.all isDigit = true := List.all_eq_true.mpr p.isDigit_of_mem
  have hmark : lowerByte p.mark = 0x65 := p.lowerByte_mark
  rw [Power.text, parsePower?_eq p.mark fun _ => hunsigned,
    if_neg (by simp [hmark, p.ne_nil, hall])]
  rfl

/-- What is read as an exponent is nothing, or an exponent. -/
theorem eq_of_parsePower? {bs : Bytes} {power : Int} (h : parsePower? bs = some power) :
    (bs = [] ∧ power = 0) ∨ ∃ p : Power decimal, bs = p.text ∧ power = p.exponent := by
  cases bs with
  | nil => exact .inl ⟨rfl, (Option.some.inj h).symm⟩
  | cons mark rest =>
    obtain ⟨s, digits, rfl, hs⟩ := Sign.exists_append rest
    rw [parsePower?_eq mark hs] at h
    split at h
    · cases h
    next hgood =>
    simp only [Bool.or_eq_true, bne_iff_ne, ne_eq, List.isEmpty_iff, Bool.not_eq_true', not_or,
      Decidable.not_not, Bool.not_eq_false, List.all_eq_true] at hgood
    obtain ⟨⟨hmark, hne⟩, hall⟩ := hgood
    exact .inr ⟨⟨mark, s, digits, hmark, hall, hne⟩, rfl, (Option.some.inj h).symm⟩

/-! ### Decimal numbers -/

/-- Behind the longest mantissa there has to be an exponent or nothing. -/
theorem parseNumber?_append {m : Mantissa decimal} {rest : Bytes} (h : m.Stops rest) :
    parseNumber? (m.text ++ rest) = (parsePower? rest).map fun power =>
      Prefix.decimalValue (m.whole ++ m.fraction.getD [])
        (-((m.fraction.getD []).length : Int) + power) := by
  have hwhole : (m.text ++ rest).takeWhile isDigit = m.whole := Mantissa.takeWhile_text h
  have hdrop : (m.text ++ rest).dropWhile isDigit = fractionText m.fraction ++ rest := by
    rw [Mantissa.text, List.append_assoc]
    exact dropWhile_stop m.isDigit_of_mem_whole (Mantissa.isDigit_of_head h)
  have hne := m.ne_nil
  have hdigits := m.isDigit_of_mem_fraction
  unfold parseNumber?
  dsimp only
  rw [hwhole, hdrop]
  cases hf : m.fraction with
  | some digits =>
    rw [hf, Option.getD_some] at hdigits hne
    have hrest : ∀ b ∈ rest.head?, isDigit b = false := fun b hb => (h b hb).1
    have htake : (digits ++ rest).takeWhile isDigit = digits := takeWhile_stop hdigits hrest
    have hdrop : (digits ++ rest).dropWhile isDigit = rest := dropWhile_stop hdigits hrest
    have hpoint : fraction? id (fractionText (some digits) ++ rest) = some (digits ++ rest) := rfl
    rw [hpoint, Option.getD_some]
    dsimp only
    rw [htake, hdrop, if_neg]
    rwa [Bool.and_eq_true, List.isEmpty_iff, List.isEmpty_iff, ← List.append_eq_nil_iff]
  | none =>
    rw [hf, Option.getD_none, List.append_nil] at hne
    have hpoint : fraction? id rest = none := by
      unfold fraction?
      split
      · exact absurd rfl ((h 0x2E rfl).2 hf)
      · rfl
    rw [fractionText, List.nil_append, hpoint]
    dsimp only
    rw [if_neg (by rwa [List.isEmpty_iff])]
    simp

theorem fraction?_of_id {α : Type} {digits : Bytes → α} {bs rest : Bytes}
    (h : fraction? id bs = some rest) : fraction? digits bs = some (digits rest) := by
  unfold fraction? at h ⊢
  split at h
  · obtain rfl := Option.some.inj h
    rfl
  · cases h

theorem parseNumber?_eq_none {text : Bytes} (h : Mantissa.Missing decimal text) :
    parseNumber? text = none := by
  obtain ⟨hwhole, hfraction⟩ := h
  change text.takeWhile isDigit = [] at hwhole
  have hdrop := List.takeWhile_append_dropWhile (p := isDigit) (l := text)
  rw [hwhole, List.nil_append] at hdrop
  unfold parseNumber?
  dsimp only
  rw [hwhole, hdrop]
  cases hf : fraction? id text with
  | none => rfl
  | some rest =>
    have hdigits : rest.takeWhile isDigit = [] := hfraction _ (fraction?_of_id hf)
    dsimp only
    rw [hdigits]
    rfl

/-- A text that is read as a decimal number is one. -/
theorem parseNumber?_eq_some_iff {text : Bytes} {value : Binary64} :
    parseNumber? text = some value ↔
      ∃ n : Floating decimal, text = n.text ∧ value = n.decimalValue := by
  constructor
  · intro h
    rcases Mantissa.exists_stops decimal text with ⟨m, rest, rfl, hm⟩ | hmissing
    · rw [parseNumber?_append hm, Option.map_eq_some_iff] at h
      obtain ⟨power, hpower, rfl⟩ := h
      rcases eq_of_parsePower? hpower with ⟨rfl, rfl⟩ | ⟨p, rfl, rfl⟩
      · exact ⟨⟨m, none⟩, rfl, by rw [Int.add_zero]; rfl⟩
      · exact ⟨⟨m, some p⟩, rfl, rfl⟩
    · rw [parseNumber?_eq_none hmissing] at h
      cases h
  · rintro ⟨n, rfl, rfl⟩
    have hm := Floating.mantissa_stops n.stops_nil
    rw [List.append_nil] at hm
    rw [Floating.text]
    change parseNumber? (n.mantissa.text ++ n.powerText) = _
    rw [parseNumber?_append hm, Floating.decimalValue, Floating.shift, Floating.powerText]
    cases n.power with
    | none => simp [parsePower?]
    | some p => simp [parsePower?_text]

/-! ### Whole texts -/

def Magnitude.isHex : Magnitude → Bool
  | .hex .. => true
  | _ => false

theorem parseMagnitude?_eq_some_iff {text : Bytes} {value : Binary64} :
    parseMagnitude? text = some value ↔
      ∃ m : Magnitude, m.isHex = false ∧ text = m.text ∧ value = m.value := by
  have hword : ∀ h : text.map lowerByte ∈ words, ∀ m : Magnitude, text = m.text →
      m = .word text h := fun h m hm => Magnitude.text_injective hm.symm
  unfold parseMagnitude?
  dsimp only
  constructor
  · intro h
    split_ifs at h with hinfinity hnan
    · have hmem : text.map lowerByte ∈ words := by
        rcases hinfinity with h | h <;> rw [h] <;> decide
      refine ⟨.word text hmem, rfl, rfl, ?_⟩
      rw [Magnitude.value, if_neg (by rcases hinfinity with h | h <;> rw [h] <;> decide)]
      exact (Option.some.inj h).symm
    · have hmem : text.map lowerByte ∈ words := by rw [hnan]; decide
      refine ⟨.word text hmem, rfl, rfl, ?_⟩
      rw [Magnitude.value, if_pos hnan]
      exact (Option.some.inj h).symm
    · obtain ⟨n, rfl, rfl⟩ := parseNumber?_eq_some_iff.mp h
      exact ⟨.decimal n, rfl, rfl, rfl⟩
  · rintro ⟨m, hm, htext, rfl⟩
    cases m with
    | hex => cases hm
    | word letters hmem =>
      obtain rfl : text = letters := htext
      rw [Magnitude.value]
      have hcases : text.map lowerByte = ascii "infinity" ∨ text.map lowerByte = ascii "inf" ∨
          text.map lowerByte = ascii "nan" := by simpa [words] using hmem
      rcases hcases with h | h | h
      · rw [if_pos (.inl h), if_neg (by rw [h]; decide)]
      · rw [if_pos (.inr h), if_neg (by rw [h]; decide)]
      · rw [if_neg (by rw [h]; decide), if_pos h, if_pos h]
    | decimal n =>
      split_ifs with hinfinity hnan
      · cases hword (by rcases hinfinity with h | h <;> rw [h] <;> decide) _ htext
      · cases hword (by rw [hnan]; decide) _ htext
      · exact parseNumber?_eq_some_iff.mpr ⟨n, htext, rfl⟩

theorem parse?_append {s : Sign} {tail : Bytes} (h : s = .none → Unsigned tail) :
    parse? (s.text ++ tail) =
      (parseMagnitude? tail).map fun value => if s.negative then value.neg else value := by
  cases s with
  | plus => cases hm : parseMagnitude? tail <;> simp [Sign.text, parse?, hm, Sign.negative]
  | minus => cases hm : parseMagnitude? tail <;> simp [Sign.text, parse?, hm, Sign.negative]
  | none =>
    have hparse : parse? tail = parseMagnitude? tail := by
      unfold parse?
      split
      · exact absurd rfl (h rfl 0x2D rfl).2
      · exact absurd rfl (h rfl 0x2B rfl).1
      · rfl
    cases hm : parseMagnitude? tail <;> simp [Sign.text, hparse, hm, Sign.negative]

/-- **The standard library reads the numerals that are not hexadecimal**, and no other text. -/
theorem parse?_eq_some_iff {bs : Bytes} {result : Binary64} :
    parse? bs = some result ↔
      ∃ n : Numeral, n.magnitude.isHex = false ∧ bs = n.text ∧ result = n.value := by
  obtain ⟨s, tail, rfl, hs⟩ := Sign.exists_append bs
  rw [parse?_append hs, Option.map_eq_some_iff]
  constructor
  · rintro ⟨value, hvalue, rfl⟩
    obtain ⟨m, hm, rfl, rfl⟩ := parseMagnitude?_eq_some_iff.mp hvalue
    exact ⟨⟨s, m⟩, hm, rfl, rfl⟩
  · rintro ⟨n, hn, htext, rfl⟩
    have hsign : s = n.sign := Sign.eq_of_append hs (fun _ => n.magnitude.unsigned [])
      (by rw [htext, List.append_nil]; rfl)
    rw [text, ← hsign] at htext
    refine ⟨n.magnitude.value, parseMagnitude?_eq_some_iff.mpr
      ⟨n.magnitude, hn, List.append_cancel_left htext, rfl⟩, ?_⟩
    rw [value, hsign]

/-- **What is cut off as a decimal number is accepted by the standard library**, with its value. -/
theorem parse?_take {bs : Bytes} {scan : Scan} (h : decimal? bs = some scan) :
    parse? (bs.take scan.length) = some scan.value := by
  rcases Floating.exists_stops decimal bs with ⟨n, rest, rfl, hn⟩ | hmissing
  · rw [decimal?_text hn] at h
    obtain rfl := Option.some.inj h
    rw [List.take_left]
    exact parse?_eq_some_iff.mpr ⟨⟨.none, .decimal n⟩, rfl, rfl, rfl⟩
  · rw [decimal?_eq_none hmissing] at h
    cases h

end Numeral
end ImageScoring
