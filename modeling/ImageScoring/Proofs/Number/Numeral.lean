import ImageScoring.Number.Prefix
import Mathlib.Data.List.TakeWhile

/-!
# Numerals

The grammar of numbers, as trees that hold nothing else. A numeral is a sign and a magnitude; a
magnitude is a hexadecimal number behind `0x`, a word, or a decimal number; and these two kinds of
numbers are written alike, in their own digits and with their own letter before the exponent
(`Radix`). `text` gives the octets of each.

At the front of a byte string a mantissa, an exponent or a number may be shorter than it could be.
It `Stops` where nothing of what follows can be added to it. Of each sort at most one stops
(`Floating.eq_of_stops`), it is the longest (`Floating.length_le_of_stops`), and without it there is
none at all (`Floating.exists_stops`).
-/

namespace ImageScoring.Numeral

open Prefix

/-! ### Digits -/

/-- The digits that numbers are written in, and the lower case of the letter before an exponent. All
of them are ASCII, and neither the letter nor a point is a digit. -/
structure Radix where
  isDigit : UInt8 → Bool
  letter : UInt8
  isAscii_of_isDigit : ∀ b, isDigit b = true → b.toNat < 0x80
  isDigit_point : isDigit 0x2E = false
  isDigit_of_mark : ∀ b, lowerByte b = letter → isDigit b = false
  le_letter : 0x61 ≤ letter.toNat
  letter_le : letter.toNat ≤ 0x7A

/-- Letters are told apart by their lower case, and nothing else has the lower case of a letter. -/
theorem lowerByte_eq_iff {b letter : UInt8} (hlow : 0x61 ≤ letter.toNat)
    (hhigh : letter.toNat ≤ 0x7A) :
    lowerByte b = letter ↔ b.toNat = letter.toNat ∨ b.toNat + 0x20 = letter.toNat := by
  unfold lowerByte
  split_ifs with hb
  · simp only [Bool.and_eq_true, decide_eq_true_eq, UInt8.le_iff_toNat_le, UInt8.reduceToNat] at hb
    have h20 : (0x20 : UInt8).toNat = 0x20 := rfl
    rw [← UInt8.toNat_inj, UInt8.toNat_add, h20]
    omega
  · simp only [Bool.and_eq_true, decide_eq_true_eq, UInt8.le_iff_toNat_le, UInt8.reduceToNat] at hb
    rw [← UInt8.toNat_inj]
    omega

/-- What is no letter has no other case. -/
theorem eq_of_lowerByte_eq {b c : UInt8} (hc : c.toNat < 0x61) (h : lowerByte b = c) : b = c := by
  unfold lowerByte at h
  split_ifs at h with hb
  · simp only [Bool.and_eq_true, decide_eq_true_eq, UInt8.le_iff_toNat_le, UInt8.reduceToNat] at hb
    have h20 : (0x20 : UInt8).toNat = 0x20 := rfl
    rw [← UInt8.toNat_inj, UInt8.toNat_add, h20] at h
    omega
  · exact h

theorem isDigit_iff {b : UInt8} : isDigit b = true ↔ 0x30 ≤ b.toNat ∧ b.toNat ≤ 0x39 := by
  simp [isDigit, UInt8.le_iff_toNat_le]

theorem isSome_hexDigit?_iff {b : UInt8} :
    (hexDigit? b).isSome = true ↔ (0x30 ≤ b.toNat ∧ b.toNat ≤ 0x39) ∨
      (0x61 ≤ b.toNat ∧ b.toNat ≤ 0x66) ∨ (0x41 ≤ b.toNat ∧ b.toNat ≤ 0x46) := by
  unfold hexDigit?
  split_ifs with h1 h2 h3 <;>
    simp_all [isDigit_iff, UInt8.le_iff_toNat_le]

def decimal : Radix where
  isDigit := isDigit
  letter := 0x65
  isAscii_of_isDigit b hb := by
    rw [isDigit_iff] at hb
    omega
  isDigit_point := by decide
  isDigit_of_mark b hb := by
    have h := (lowerByte_eq_iff (by decide) (by decide)).mp hb
    simp only [UInt8.reduceToNat] at h
    rw [Bool.eq_false_iff, ne_eq, isDigit_iff]
    omega
  le_letter := by decide
  letter_le := by decide

def hexadecimal : Radix where
  isDigit b := (hexDigit? b).isSome
  letter := 0x70
  isAscii_of_isDigit b hb := by
    rw [isSome_hexDigit?_iff] at hb
    omega
  isDigit_point := by decide
  isDigit_of_mark b hb := by
    have h := (lowerByte_eq_iff (by decide) (by decide)).mp hb
    simp only [UInt8.reduceToNat] at h
    rw [Bool.eq_false_iff, ne_eq, isSome_hexDigit?_iff]
    omega
  le_letter := by decide
  letter_le := by decide

theorem Radix.isAscii_of_mark {r : Radix} {b : UInt8} (hb : lowerByte b = r.letter) :
    b.toNat < 0x80 := by
  have h := (lowerByte_eq_iff r.le_letter r.letter_le).mp hb
  have := r.letter_le
  omega

theorem Radix.point_ne_letter (r : Radix) : lowerByte 0x2E ≠ r.letter := by
  intro h
  have := r.le_letter
  rw [← h] at this
  exact absurd this (by decide)

/-! ### The grammar -/

inductive Sign where
  | none
  | plus
  | minus
  deriving DecidableEq, Repr

def Sign.text : Sign → Bytes
  | .none => []
  | .plus => [0x2B]
  | .minus => [0x2D]

/-- What a fraction adds to the digits before it: a point, and digits or none. -/
def fractionText : Option Bytes → Bytes
  | none => []
  | some digits => 0x2E :: digits

/-- Digits around an optional point, at least one of them. -/
@[ext]
structure Mantissa (r : Radix) where
  whole : Bytes
  fraction : Option Bytes
  isDigit_of_mem_whole : ∀ b ∈ whole, r.isDigit b = true
  isDigit_of_mem_fraction : ∀ b ∈ fraction.getD [], r.isDigit b = true
  ne_nil : whole ++ fraction.getD [] ≠ []

/-- An exponent: its letter in either case, a sign, and at least one decimal digit. -/
@[ext]
structure Power (r : Radix) where
  mark : UInt8
  sign : Sign
  digits : Bytes
  lowerByte_mark : lowerByte mark = r.letter
  isDigit_of_mem : ∀ b ∈ digits, isDigit b = true
  ne_nil : digits ≠ []

/-- A mantissa with an optional exponent. -/
@[ext]
structure Floating (r : Radix) where
  mantissa : Mantissa r
  power : Option (Power r)

/-- The words that stand for numbers, in lower case. -/
def words : List Bytes :=
  [ascii "infinity", ascii "inf", ascii "nan"]

/-- A number without its sign. -/
inductive Magnitude where
  | hex (mark : UInt8) (lowerByte_mark : lowerByte mark = 0x78) (number : Floating hexadecimal)
  | word (letters : Bytes) (mem_words : letters.map lowerByte ∈ words)
  | decimal (number : Floating decimal)

end Numeral

/-- A number: a sign, which may be missing, and a magnitude. -/
structure Numeral where
  sign : Numeral.Sign
  magnitude : Numeral.Magnitude

namespace Numeral

open Prefix

variable {r : Radix}

def Mantissa.text (m : Mantissa r) : Bytes :=
  m.whole ++ fractionText m.fraction

def Power.text (p : Power r) : Bytes :=
  p.mark :: (p.sign.text ++ p.digits)

def Floating.text (n : Floating r) : Bytes :=
  n.mantissa.text ++ (n.power.map Power.text).getD []

def Magnitude.text : Magnitude → Bytes
  | .hex mark _ number => 0x30 :: mark :: number.text
  | .word letters _ => letters
  | .decimal number => number.text

end Numeral

def Numeral.text (n : Numeral) : Bytes :=
  n.sign.text ++ n.magnitude.text

namespace Numeral

open Prefix

variable {r : Radix}

/-! ### Runs of digits -/

/-- Octets of a kind that nothing of that kind follows are taken, no more and no fewer. -/
theorem takeWhile_stop {p : UInt8 → Bool} {digits rest : Bytes} (h : ∀ b ∈ digits, p b = true)
    (hr : ∀ b ∈ rest.head?, p b = false) : (digits ++ rest).takeWhile p = digits := by
  rw [List.takeWhile_append_of_pos h]
  cases rest with
  | nil => exact List.append_nil digits
  | cons b rest => rw [List.takeWhile_cons_of_neg (by simp [hr b rfl]), List.append_nil]

theorem dropWhile_stop {p : UInt8 → Bool} {digits rest : Bytes} (h : ∀ b ∈ digits, p b = true)
    (hr : ∀ b ∈ rest.head?, p b = false) : (digits ++ rest).dropWhile p = rest := by
  have hsplit := List.takeWhile_append_dropWhile (p := p) (l := digits ++ rest)
  rw [takeWhile_stop h hr] at hsplit
  exact List.append_cancel_left hsplit

theorem prefix_takeWhile {p : UInt8 → Bool} {digits bs : Bytes} (h : ∀ b ∈ digits, p b = true)
    (hp : digits <+: bs) : digits <+: bs.takeWhile p := by
  obtain ⟨rest, rfl⟩ := hp
  rw [List.takeWhile_append_of_pos h]
  exact List.prefix_append digits _

/-- Every byte string is a run of octets of a kind, and what begins otherwise. -/
theorem exists_run (p : UInt8 → Bool) (bs : Bytes) :
    ∃ rest, bs = bs.takeWhile p ++ rest ∧ ∀ b ∈ rest.head?, p b = false := by
  refine ⟨bs.dropWhile p, List.takeWhile_append_dropWhile.symm, fun b hb => ?_⟩
  have h := List.head?_dropWhile_not p bs
  rw [Option.mem_def.mp hb] at h
  exact h

/-! ### Mantissas -/

namespace Mantissa

/-- Nothing of what follows can be added to the mantissa. -/
def Stops (m : Mantissa r) (rest : Bytes) : Prop :=
  ∀ b ∈ rest.head?, r.isDigit b = false ∧ (m.fraction = none → b ≠ 0x2E)

/-- What follows the digits before the point begins with no digit. -/
theorem isDigit_of_head {m : Mantissa r} {rest : Bytes} (h : m.Stops rest) :
    ∀ b ∈ (fractionText m.fraction ++ rest).head?, r.isDigit b = false := by
  cases hf : m.fraction with
  | none => exact fun b hb => (h b hb).1
  | some digits =>
    rintro b hb
    rw [← Option.some.inj hb]
    exact r.isDigit_point

theorem takeWhile_text {m : Mantissa r} {rest : Bytes} (h : m.Stops rest) :
    (m.text ++ rest).takeWhile r.isDigit = m.whole := by
  rw [text, List.append_assoc]
  exact takeWhile_stop m.isDigit_of_mem_whole (isDigit_of_head h)

/-- The digits behind the point are found where those before it end. -/
theorem fraction?_text {m : Mantissa r} {rest : Bytes} (h : m.Stops rest) :
    fraction? (·.takeWhile r.isDigit) ((m.text ++ rest).drop m.whole.length) = m.fraction := by
  rw [text, List.append_assoc, List.drop_left]
  have hdigits := m.isDigit_of_mem_fraction
  cases hf : m.fraction with
  | none =>
    rw [fractionText, List.nil_append, fraction?.eq_def]
    split
    · exact absurd rfl ((h 0x2E rfl).2 hf)
    · rfl
  | some digits =>
    rw [hf] at hdigits
    rw [fractionText, List.cons_append, fraction?]
    exact congrArg some (takeWhile_stop hdigits fun b hb => (h b hb).1)

theorem eq_of_stops {m m' : Mantissa r} {rest rest' : Bytes} (h : m.Stops rest)
    (h' : m'.Stops rest') (heq : m.text ++ rest = m'.text ++ rest') : m = m' := by
  have hwhole : m.whole = m'.whole := by
    rw [← takeWhile_text h, heq, takeWhile_text h']
  have hfraction : m.fraction = m'.fraction := by
    rw [← fraction?_text h, heq, hwhole, fraction?_text h']
  exact Mantissa.ext hwhole hfraction

/-- A mantissa at the front that has a point is cut off nowhere but behind it. -/
theorem whole_eq {m : Mantissa r} {digits rest bs : Bytes} (hf : m.fraction = some digits)
    (heq : m.text ++ rest = bs) : bs.takeWhile r.isDigit = m.whole := by
  rw [← heq, text, hf, List.append_assoc]
  exact takeWhile_stop m.isDigit_of_mem_whole fun b hb => by
    rw [← Option.some.inj hb]
    exact r.isDigit_point

/-- A mantissa that stops is the longest. -/
theorem length_le_of_stops {m m' : Mantissa r} {rest : Bytes} (h : m.Stops rest)
    (hp : m'.text <+: m.text ++ rest) : m'.text.length ≤ m.text.length := by
  obtain ⟨rest', heq⟩ := hp
  cases hf' : m'.fraction with
  | none =>
    have hwhole : m'.whole <+: m.whole := by
      rw [← takeWhile_text h]
      refine prefix_takeWhile m'.isDigit_of_mem_whole ⟨fractionText m'.fraction ++ rest', ?_⟩
      rw [← heq, text, List.append_assoc]
    have := hwhole.length_le
    simp only [text, hf', fractionText, List.length_append, List.length_nil]
    omega
  | some digits' =>
    have hwhole : m.whole = m'.whole := by rw [← whole_eq hf' heq, takeWhile_text h]
    have hfraction : m.fraction = some ((digits' ++ rest').takeWhile r.isDigit) := by
      rw [← fraction?_text h, ← heq, text, hf', hwhole, List.append_assoc, List.drop_left,
        fractionText, List.cons_append, fraction?]
    have hdigits := m'.isDigit_of_mem_fraction
    rw [hf', Option.getD_some] at hdigits
    have := (prefix_takeWhile hdigits (List.prefix_append digits' rest')).length_le
    simp only [text, hf', hfraction, hwhole, fractionText, List.length_append, List.length_cons]
    omega

/-- A mantissa in front of the letter of an exponent stops there. -/
theorem stops_mark (m : Mantissa r) {b : UInt8} (hb : lowerByte b = r.letter) (rest : Bytes) :
    m.Stops (b :: rest) := by
  intro c hc
  rw [← Option.some.inj hc]
  refine ⟨r.isDigit_of_mark b hb, fun _ hpoint => ?_⟩
  rw [hpoint] at hb
  exact r.point_ne_letter hb

/-- No digit stands at the front, nor behind a point there. -/
def Missing (r : Radix) (bs : Bytes) : Prop :=
  bs.takeWhile r.isDigit = [] ∧ ∀ digits, fraction? (·.takeWhile r.isDigit) bs = some digits →
    digits = []

theorem not_prefix_of_missing {bs : Bytes} (h : Missing r bs) (m : Mantissa r) :
    ¬ m.text <+: bs := by
  rintro ⟨rest, heq⟩
  obtain ⟨hdigits, hfraction⟩ := h
  have hwhole : m.whole = [] := by
    rw [← List.prefix_nil, ← hdigits]
    refine prefix_takeWhile m.isDigit_of_mem_whole ⟨fractionText m.fraction ++ rest, ?_⟩
    rw [← heq, text, List.append_assoc]
  have hne := m.ne_nil
  have hall := m.isDigit_of_mem_fraction
  cases hf : m.fraction with
  | none => simp [hwhole, hf] at hne
  | some digits =>
    rw [hf] at hall hne
    rw [text, hwhole, hf, List.nil_append, fractionText, List.cons_append] at heq
    rw [← heq, fraction?] at hfraction
    have hnil := prefix_takeWhile hall (List.prefix_append digits rest)
    rw [hfraction _ rfl, List.prefix_nil] at hnil
    rw [hwhole] at hne
    exact hne hnil

/-- A byte string begins with a mantissa that stops, or with none at all. -/
theorem exists_stops (r : Radix) (bs : Bytes) :
    (∃ (m : Mantissa r) (rest : Bytes), bs = m.text ++ rest ∧ m.Stops rest) ∨ Missing r bs := by
  obtain ⟨rest, hbs, hrest⟩ := exists_run r.isDigit bs
  have hall : ∀ b ∈ bs.takeWhile r.isDigit, r.isDigit b = true := fun b hb =>
    List.mem_takeWhile_imp hb
  generalize bs.takeWhile r.isDigit = whole at hbs hall
  by_cases hpoint : ∃ tail, rest = 0x2E :: tail
  · obtain ⟨tail, rfl⟩ := hpoint
    obtain ⟨after, htail, hafter⟩ := exists_run r.isDigit tail
    have hdigits : ∀ b ∈ tail.takeWhile r.isDigit, r.isDigit b = true := fun b hb =>
      List.mem_takeWhile_imp hb
    by_cases hne : whole ++ tail.takeWhile r.isDigit = []
    · right
      obtain ⟨hwhole, hnil⟩ := List.append_eq_nil_iff.mp hne
      rw [hbs, hwhole, List.nil_append]
      refine ⟨List.takeWhile_cons_of_neg (by simp [r.isDigit_point]), fun digits h => ?_⟩
      rw [fraction?, hnil] at h
      exact (Option.some.inj h).symm
    · left
      refine ⟨⟨whole, some (tail.takeWhile r.isDigit), hall, hdigits, hne⟩, after, ?_, ?_⟩
      · rw [text, fractionText, List.append_assoc, List.cons_append, ← htail]
        exact hbs
      · exact fun b hb => ⟨hafter b hb, nofun⟩
  · by_cases hne : whole = []
    · right
      rw [hbs, hne, List.nil_append]
      refine ⟨?_, fun digits h => ?_⟩
      · cases rest with
        | nil => rfl
        | cons b tail => exact List.takeWhile_cons_of_neg (by simp [hrest b rfl])
      · rw [fraction?.eq_def] at h
        split at h
        · next tail => exact absurd ⟨tail, rfl⟩ hpoint
        · cases h
    · left
      refine ⟨⟨whole, none, hall, by simp, by simpa using hne⟩, rest, ?_, fun b hb => ?_⟩
      · rw [text, fractionText, List.append_nil]
        exact hbs
      · refine ⟨hrest b hb, fun _ hb' => hpoint ?_⟩
        obtain ⟨tail, htail⟩ := List.head?_eq_some_iff.mp hb
        exact ⟨tail, by rw [htail, hb']⟩

end Mantissa

/-! ### Signs and exponents -/

/-- What follows does not begin with a sign. -/
def Unsigned (tail : Bytes) : Prop :=
  ∀ b ∈ tail.head?, b ≠ 0x2B ∧ b ≠ 0x2D

def Sign.negative : Sign → Bool
  | .minus => true
  | _ => false

/-- Every byte string is a sign, which may be missing, and what begins with none. -/
theorem Sign.exists_append (bs : Bytes) :
    ∃ (s : Sign) (tail : Bytes), bs = s.text ++ tail ∧ (s = .none → Unsigned tail) := by
  by_cases hplus : bs.head? = some 0x2B
  · obtain ⟨tail, rfl⟩ := List.head?_eq_some_iff.mp hplus
    exact ⟨.plus, tail, rfl, nofun⟩
  by_cases hminus : bs.head? = some 0x2D
  · obtain ⟨tail, rfl⟩ := List.head?_eq_some_iff.mp hminus
    exact ⟨.minus, tail, rfl, nofun⟩
  · exact ⟨.none, bs, rfl, fun _ b hb => ⟨by rintro rfl; exact hplus hb,
      by rintro rfl; exact hminus hb⟩⟩

theorem Sign.eq_of_append {s s' : Sign} {tail tail' : Bytes} (h : s = .none → Unsigned tail)
    (h' : s' = .none → Unsigned tail') (heq : s.text ++ tail = s'.text ++ tail') : s = s' := by
  cases s <;> cases s' <;> first | rfl | skip
  case none.plus => exact absurd rfl (h rfl 0x2B (by rw [show tail = _ from heq]; rfl)).1
  case none.minus => exact absurd rfl (h rfl 0x2D (by rw [show tail = _ from heq]; rfl)).2
  case plus.none => exact absurd rfl (h' rfl 0x2B (by rw [show tail' = _ from heq.symm]; rfl)).1
  case minus.none => exact absurd rfl (h' rfl 0x2D (by rw [show tail' = _ from heq.symm]; rfl)).2
  all_goals cases heq

namespace Power

/-- No digit follows the exponent. -/
def Stops (rest : Bytes) : Prop :=
  ∀ b ∈ rest.head?, isDigit b = false

theorem unsigned_digits (p : Power r) (rest : Bytes) : Unsigned (p.digits ++ rest) := by
  obtain ⟨d, ds, hd⟩ := List.exists_cons_of_ne_nil p.ne_nil
  have hdigit := isDigit_iff.mp (p.isDigit_of_mem d (by rw [hd]; exact List.mem_cons_self))
  rw [hd]
  rintro b hb
  rw [← Option.some.inj hb]
  constructor <;> rintro rfl <;> exact absurd hdigit (by decide)

theorem eq_of_stops {p p' : Power r} {rest rest' : Bytes} (h : Stops rest) (h' : Stops rest')
    (heq : p.text ++ rest = p'.text ++ rest') : p = p' := by
  simp only [text, List.cons_append, List.append_assoc, List.cons.injEq] at heq
  obtain ⟨hmark, heq⟩ := heq
  have hsign := Sign.eq_of_append (fun _ => p.unsigned_digits rest)
    (fun _ => p'.unsigned_digits rest') heq
  rw [hsign] at heq
  have hdigits : p.digits = p'.digits := by
    rw [← takeWhile_stop p.isDigit_of_mem h, List.append_cancel_left heq,
      takeWhile_stop p'.isDigit_of_mem h']
  exact Power.ext hmark hsign hdigits

/-- Where an exponent stands at the front, one stands there that stops, at least as long. -/
theorem exists_stops_of_prefix {p : Power r} {bs : Bytes} (h : p.text <+: bs) :
    ∃ (q : Power r) (rest : Bytes), bs = q.text ++ rest ∧ Stops rest ∧
      p.text.length ≤ q.text.length := by
  obtain ⟨tail, rfl⟩ := h
  obtain ⟨rest, htail, hrest⟩ := exists_run isDigit tail
  have hall : ∀ b ∈ p.digits ++ tail.takeWhile isDigit, isDigit b = true := by
    intro b hb
    rcases List.mem_append.mp hb with hb | hb
    · exact p.isDigit_of_mem b hb
    · exact List.mem_takeWhile_imp hb
  refine ⟨⟨p.mark, p.sign, p.digits ++ tail.takeWhile isDigit, p.lowerByte_mark, hall,
    by simp [p.ne_nil]⟩, rest, ?_, hrest, ?_⟩
  · rw [text, text, List.cons_append, List.cons_append, List.append_assoc, List.append_assoc,
      List.append_assoc, ← htail]
  · simp only [text, List.length_cons, List.length_append]
    omega

theorem length_le_of_stops {p p' : Power r} {rest : Bytes} (h : Stops rest)
    (hp : p'.text <+: p.text ++ rest) : p'.text.length ≤ p.text.length := by
  obtain ⟨q, after, heq, hstops, hlength⟩ := exists_stops_of_prefix hp
  rw [eq_of_stops h hstops heq]
  exact hlength

/-- Behind its letter and its sign an exponent is the run of digits there. -/
theorem exponent?_eq (letter b : UInt8) {s : Sign} {tail : Bytes} (h : s = .none → Unsigned tail) :
    exponent? letter (b :: (s.text ++ tail)) =
      if lowerByte b != letter then none
      else if (tail.takeWhile isDigit).isEmpty then none
      else some ⟨s.negative, tail.takeWhile isDigit,
        1 + s.text.length + (tail.takeWhile isDigit).length⟩ := by
  cases s with
  | plus => rfl
  | minus => rfl
  | none =>
    have hne : ∀ c rest, tail = c :: rest → c ≠ 0x2B ∧ c ≠ 0x2D := by
      rintro c rest rfl
      exact h rfl c rfl
    rw [Sign.text, List.nil_append, exponent?]
    · rfl
    · exact fun rest heq => (hne _ rest heq).2 rfl
    · exact fun rest heq => (hne _ rest heq).1 rfl

theorem exponent?_text (p : Power r) {rest : Bytes} (h : Stops rest) :
    exponent? r.letter (p.text ++ rest) = some ⟨p.sign.negative, p.digits, p.text.length⟩ := by
  rw [text, List.cons_append, List.append_assoc,
    exponent?_eq r.letter p.mark fun _ => p.unsigned_digits rest, takeWhile_stop p.isDigit_of_mem h,
    if_neg (by simp [p.lowerByte_mark]), if_neg (by simp [p.ne_nil])]
  simp only [Option.some.injEq, Exponent.mk.injEq, true_and, List.length_cons, List.length_append]
  omega

theorem exponent?_eq_none {bs : Bytes} (h : ∀ p : Power r, ¬ p.text <+: bs) :
    exponent? r.letter bs = none := by
  cases bs with
  | nil => rfl
  | cons b bs =>
    obtain ⟨s, tail, rfl, hs⟩ := Sign.exists_append bs
    rw [exponent?_eq r.letter b hs]
    split
    · rfl
    next hmark =>
    split
    · rfl
    next hne =>
    obtain ⟨rest, htail, -⟩ := exists_run isDigit tail
    refine absurd ⟨rest, ?_⟩ (h ⟨b, s, tail.takeWhile isDigit, by simpa using hmark,
      fun c hc => List.mem_takeWhile_imp hc, by simpa using hne⟩)
    rw [text, List.cons_append, List.append_assoc, ← htail]

end Power

/-! ### Numbers -/

namespace Floating

/-- The octets of the exponent, if there is one. -/
def powerText (n : Floating r) : Bytes :=
  (n.power.map Power.text).getD []

/-- Nothing of what follows can be added to the number. -/
def Stops (n : Floating r) (rest : Bytes) : Prop :=
  match n.power with
  | none => n.mantissa.Stops rest ∧ ∀ p : Power r, ¬ p.text <+: rest
  | some _ => Power.Stops rest

theorem mantissa_stops {n : Floating r} {rest : Bytes} (h : n.Stops rest) :
    n.mantissa.Stops (n.powerText ++ rest) := by
  unfold Stops at h
  unfold powerText
  cases hp : n.power with
  | none =>
    rw [hp] at h
    exact h.1
  | some p => exact n.mantissa.stops_mark p.lowerByte_mark (p.sign.text ++ p.digits ++ rest)

/-- The exponent behind the mantissa is the one that is read there. -/
theorem exponent?_powerText {n : Floating r} {rest : Bytes} (h : n.Stops rest) :
    exponent? r.letter (n.powerText ++ rest) =
      n.power.map fun p => ⟨p.sign.negative, p.digits, p.text.length⟩ := by
  unfold Stops at h
  unfold powerText
  cases hp : n.power with
  | none =>
    rw [hp] at h
    exact Power.exponent?_eq_none h.2
  | some p =>
    rw [hp] at h
    exact p.exponent?_text h

theorem eq_of_stops {n n' : Floating r} {rest rest' : Bytes} (h : n.Stops rest)
    (h' : n'.Stops rest') (heq : n.text ++ rest = n'.text ++ rest') : n = n' := by
  rw [text, List.append_assoc, text, List.append_assoc] at heq
  have hm := Mantissa.eq_of_stops (mantissa_stops h) (mantissa_stops h') heq
  rw [hm] at heq
  have hpower := List.append_cancel_left heq
  unfold Stops at h h'
  cases hp : n.power with
  | none =>
    cases hp' : n'.power with
    | none => exact Floating.ext hm (hp.trans hp'.symm)
    | some p' =>
      rw [hp] at h
      rw [hp, hp'] at hpower
      exact absurd ⟨rest', hpower.symm⟩ (h.2 p')
  | some p =>
    cases hp' : n'.power with
    | none =>
      rw [hp'] at h'
      rw [hp, hp'] at hpower
      exact absurd ⟨rest, hpower⟩ (h'.2 p)
    | some p' =>
      rw [hp] at h
      rw [hp'] at h'
      rw [hp, hp'] at hpower
      exact Floating.ext hm (by rw [hp, hp', Power.eq_of_stops h h' hpower])

/-- **A number that stops is the longest** at the front. -/
theorem length_le_of_stops {n n' : Floating r} {rest : Bytes} (h : n.Stops rest)
    (hp : n'.text <+: n.text ++ rest) : n'.text.length ≤ n.text.length := by
  have hstops := mantissa_stops h
  obtain ⟨rest', heq⟩ := hp
  rw [text, List.append_assoc, text, List.append_assoc] at heq
  simp only [text, List.length_append]
  cases hp' : n'.power with
  | none =>
    have := Mantissa.length_le_of_stops hstops ⟨_, heq⟩
    simp only [Option.map_none, Option.getD_none, List.length_nil]
    omega
  | some p' =>
    rw [hp', Option.map_some, Option.getD_some] at heq
    have hm : n.mantissa = n'.mantissa := Mantissa.eq_of_stops hstops
      (n'.mantissa.stops_mark p'.lowerByte_mark (p'.sign.text ++ p'.digits ++ rest')) heq.symm
    rw [hm] at heq
    have hpower := List.append_cancel_left heq
    unfold Stops at h
    cases hpow : n.power with
    | none =>
      rw [hpow] at h
      rw [hpow] at hpower
      exact absurd ⟨rest', hpower⟩ (h.2 p')
    | some p =>
      rw [hpow] at h
      rw [hpow] at hpower
      have := Power.length_le_of_stops h ⟨rest', hpower⟩
      rw [hm]
      simp only [Option.map_some, Option.getD_some]
      omega

theorem not_prefix_of_missing {bs : Bytes} (h : Mantissa.Missing r bs) (n : Floating r) :
    ¬ n.text <+: bs := fun hp =>
  Mantissa.not_prefix_of_missing h n.mantissa ((List.prefix_append _ _).trans hp)

/-- **A byte string begins with a number that stops, or with none at all.** -/
theorem exists_stops (r : Radix) (bs : Bytes) :
    (∃ (n : Floating r) (rest : Bytes), bs = n.text ++ rest ∧ n.Stops rest) ∨
      Mantissa.Missing r bs := by
  rcases Mantissa.exists_stops r bs with ⟨m, rest, rfl, hm⟩ | hmissing
  · left
    by_cases hpower : ∃ p : Power r, p.text <+: rest
    · obtain ⟨p, hp⟩ := hpower
      obtain ⟨q, after, rfl, hstops, -⟩ := Power.exists_stops_of_prefix hp
      exact ⟨⟨m, some q⟩, after, (List.append_assoc _ _ _).symm, hstops⟩
    · refine ⟨⟨m, none⟩, rest, ?_, hm, fun p hp => hpower ⟨p, hp⟩⟩
      simp [text]
  · exact .inr hmissing

end Floating

end Numeral
end ImageScoring
