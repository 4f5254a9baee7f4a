import ImageScoring.Proofs.Number.Accumulation
import ImageScoring.Proofs.Number.Result

/-!
# Hexadecimal numbers

The number that a hexadecimal numeral denotes is a fraction (`Floating.number`). The value that is
computed for it is rounded more than once: the mantissa is its kept digits, rounded, and it is
scaled by a power of two that is zero or infinite from 2¹⁰²⁴ on. `Harmless` lists the numerals for
which this comes to the binary64 number nearest to the fraction after all, in terms of fractions and
of `Nearest` alone (`hexValue_nearest_iff`).
-/

namespace ImageScoring.Numeral

open Prefix Binary64

/-! ### What a numeral denotes -/

/-- The number that hexadecimal digits stand for. -/
def hexNumber (digits : List Nat) : Nat :=
  digits.foldl (fun n d => 16 * n + d) 0

namespace Mantissa

variable (m : Mantissa hexadecimal)

def wholeDigits : List Nat :=
  m.whole.filterMap hexDigit?

def fractionDigits : List Nat :=
  (m.fraction.getD []).filterMap hexDigit?

/-- The fraction that all digits denote. -/
def number : ℚ :=
  hexNumber (m.wholeDigits ++ m.fractionDigits) / 16 ^ m.fractionDigits.length

/-- The number that the kept digits stand for, and those left over. -/
def keptDigits : Nat × List Nat :=
  keep 0 (counted m.wholeDigits m.fractionDigits)

/-- The fraction that the kept digits denote. -/
def kept : ℚ :=
  m.keptDigits.1 * 16 ^ m.keptDigits.2.length / 16 ^ (m.fractionDigits.take placeLimit).length

end Mantissa

namespace Floating

variable (n : Floating hexadecimal)

/-- Whether the exponent is negative. -/
def scaledDown : Bool :=
  (n.power.map (·.sign.negative)).getD false

/-- The exponent without its sign. -/
def scale : Nat :=
  (n.power.map fun p => digitsValue p.digits).getD 0

/-- The fraction that the numeral denotes. -/
def number : ℚ :=
  if n.scaledDown then n.mantissa.number / 2 ^ n.scale else n.mantissa.number * 2 ^ n.scale

end Floating

/-- The numerals whose value is the number nearest to the fraction they denote. -/
inductive Harmless (n : Floating hexadecimal) : Prop where
  /-- The kept digits, scaled up, are rounded to the same number as the fraction. -/
  | scaledUp {x : Binary64} : n.scaledDown = false → n.scale < 1024 →
      Nearest (n.mantissa.kept * 2 ^ n.scale) x → Nearest n.number x → Harmless n
  /-- The kept digits, rounded, scaled down and rounded again, come to the same number as the
  fraction. -/
  | scaledDown {m x : Binary64} : n.scaledDown = true → n.scale < 1024 →
      n.mantissa.kept < rangeEnd → Nearest n.mantissa.kept m → Nearest (m.value / 2 ^ n.scale) x →
      Nearest n.number x → Harmless n
  /-- The kept digits are out of range, and so is the fraction, though it is scaled down. -/
  | infinite : n.scaledDown = true → n.scale < 1024 → rangeEnd ≤ n.mantissa.kept →
      rangeEnd ≤ n.number → Harmless n
  /-- The power of two is out of range, and so is the fraction. -/
  | outOfRange : n.scaledDown = false → 1024 ≤ n.scale → 0 < n.mantissa.kept →
      rangeEnd ≤ n.number → Harmless n
  /-- The inverse power of two has vanished, and the fraction is rounded to zero. -/
  | vanishing : n.scaledDown = true → 1024 ≤ n.scale → n.mantissa.kept < rangeEnd →
      n.number ≤ 1 / 2 ^ 1075 → Harmless n

/-! ### Mantissas -/

theorem lt_of_hexDigit? {b : UInt8} {d : Nat} (h : hexDigit? b = some d) : d < 16 := by
  unfold hexDigit? at h
  split_ifs at h with h1 h2 h3
  · obtain rfl := Option.some.inj h
    have := isDigit_iff.mp h1
    rw [digitValue]
    omega
  · obtain rfl := Option.some.inj h
    simp only [Bool.and_eq_true, decide_eq_true_eq, UInt8.le_iff_toNat_le, UInt8.reduceToNat] at h2
    omega
  · obtain rfl := Option.some.inj h
    simp only [Bool.and_eq_true, decide_eq_true_eq, UInt8.le_iff_toNat_le, UInt8.reduceToNat] at h3
    omega

theorem lt_of_mem_hexDigits {bs : Bytes} : ∀ d ∈ bs.filterMap hexDigit?, d < 16 := by
  intro d hd
  obtain ⟨b, -, hb⟩ := List.mem_filterMap.mp hd
  exact lt_of_hexDigit? hb

namespace Mantissa

variable (m : Mantissa hexadecimal)

/-- The kept digits, in units. -/
def units : Nat :=
  keptUnits m.wholeDigits m.fractionDigits

theorem hexValue_eq : m.hexValue = ofUnits false m.units 1 :=
  hexFraction_hexWhole lt_of_mem_hexDigits lt_of_mem_hexDigits

theorem kept_eq : m.kept = (m.units : ℚ) / (1 : Nat) / one := by
  have hone : (one : ℚ) = 2 ^ (4 * placeLimit + 2) := by
    rw [one_eq, cast_two_pow, unitExponent_eq_places]
  have hlength := List.length_take_le placeLimit m.fractionDigits
  rw [kept, units, keptUnits, ← keptDigits, hone, Nat.cast_one, div_one, Nat.cast_mul,
    cast_two_pow, div_eq_div_iff (by positivity) (by positivity)]
  generalize (m.fractionDigits.take placeLimit).length = c at *
  generalize m.keptDigits.2.length = l
  rw [mul_assoc, mul_assoc]
  congr 1
  rw [show (16 : ℚ) = 2 ^ 4 by norm_num, ← pow_mul, ← pow_mul, ← pow_add, ← pow_add]
  congr 1
  omega

/-- Without digits left over, and without any behind the last place, all digits are kept. -/
theorem kept_eq_number {m : Mantissa hexadecimal} (hplaces : m.fractionDigits.length ≤ placeLimit)
    (hnil : m.keptDigits.2 = []) : m.kept = m.number := by
  have htake := List.take_of_length_le hplaces
  have hkeep : m.keptDigits = keep 0 (m.wholeDigits ++ m.fractionDigits) := by
    rw [keptDigits, counted, htake]
  rw [hkeep] at hnil
  rw [kept, number, hkeep, htake, hnil, keep_fst_of_nil hnil, List.length_nil, pow_zero, mul_one]
  rfl

theorem number_nonneg : 0 ≤ m.number :=
  div_nonneg (Nat.cast_nonneg _) (by positivity)

end Mantissa

/-! ### Exponents -/

theorem foldl_saturated {n m : Nat} (h : n = min m hexExponentLimit) (digits : Bytes) :
    digits.foldl
        (fun n b => min (min (10 * n) hexExponentLimit + digitValue b) hexExponentLimit) n =
      min (digits.foldl withDigit m) hexExponentLimit := by
  induction digits generalizing n m with
  | nil => exact h
  | cons b digits ih =>
    rw [List.foldl_cons, List.foldl_cons]
    refine ih ?_
    rw [withDigit, h]
    omega

/-- Exponents beyond the limit are taken for the limit, and all others for what they are. -/
theorem saturatedValue_eq (digits : Bytes) :
    saturatedValue digits = min (digitsValue digits) hexExponentLimit := by
  rw [digitsValue_eq_foldl]
  exact foldl_saturated (n := 0) (m := 0) (by decide) digits

/-- The power of two in range that an exponent gives. -/
theorem powerOfTwo_of_lt {negative : Bool} {e : Nat} (he : e < 1024) :
    powerOfTwo negative (min e hexExponentLimit) =
      ofUnits false (2 ^ (if negative then unitExponent - e else unitExponent + e)) 1 := by
  have hlimit : 1024 ≤ hexExponentLimit := by decide
  have hunit : 1024 ≤ unitExponent := by decide
  rw [Nat.min_eq_left (by omega), powerOfTwo, if_neg (by omega)]
  cases negative with
  | true => exact ofFraction_two_pow (by omega)
  | false => exact ofNat_two_pow e

theorem powerOfTwo_of_le {negative : Bool} {e : Nat} (he : 1024 ≤ e) :
    powerOfTwo negative (min e hexExponentLimit) =
      if negative then ofUnits false 0 1 else infinity false := by
  have hlimit : 1024 ≤ hexExponentLimit := by decide
  rw [powerOfTwo, if_pos (by omega), Binary64.zero, ofNat_eq, Nat.zero_mul]

/-! ### Values -/

namespace Floating

variable (n : Floating hexadecimal)

theorem hexValue_eq :
    n.hexValue =
      (ofUnits false n.mantissa.units 1).mul
        (powerOfTwo n.scaledDown (min n.scale hexExponentLimit)) := by
  unfold hexValue scaledDown scale
  rw [n.mantissa.hexValue_eq]
  cases n.power with
  | some p => simp only [Option.map_some, Option.getD_some, saturatedValue_eq]
  | none =>
    have h := mul_twoPow n.mantissa.units (k := 0) (by decide)
    rw [Nat.pow_zero, Nat.mul_one] at h
    rw [Option.map_none, Option.getD_none, Option.map_none, Option.getD_none,
      powerOfTwo_of_lt (by decide), if_neg Bool.false_ne_true]
    exact h.symm

/-- Scaled up, the kept digits are rounded once. -/
theorem hexValue_up (hdown : n.scaledDown = false) (he : n.scale < 1024) :
    n.hexValue = ofUnits false (n.mantissa.units * 2 ^ n.scale) 1 := by
  rw [n.hexValue_eq, hdown, powerOfTwo_of_lt he]
  exact mul_twoPow _ he

/-- Scaled down, they are rounded twice. -/
theorem hexValue_down (hdown : n.scaledDown = true) (he : n.scale < 1024)
    (hfinite : nearest n.mantissa.units 1 < infinityWord) :
    n.hexValue = ofUnits false (Binary64.units (nearest n.mantissa.units 1)) (2 ^ n.scale) := by
  have hunit : 1024 ≤ unitExponent := by decide
  rw [n.hexValue_eq, hdown, powerOfTwo_of_lt he]
  exact mul_inverse_twoPow (by omega) hfinite

theorem hexValue_infinite (hdown : n.scaledDown = true) (he : n.scale < 1024)
    (hinfinite : nearest n.mantissa.units 1 = infinityWord) : n.hexValue = infinity false := by
  have hunit : unitExponent = 1074 := rfl
  rw [n.hexValue_eq, hdown, powerOfTwo_of_lt he, ofUnits_eq_infinity hinfinite]
  exact infinity_mul (exact_two_pow (by rw [if_pos rfl]; omega)) (Nat.two_pow_pos _)

/-- Where the power of two is infinite, nothing but zero has a number for its value. -/
theorem hexValue_out (hdown : n.scaledDown = false) (he : 1024 ≤ n.scale) :
    n.hexValue = if n.mantissa.units = 0 then nan true else infinity false := by
  rw [n.hexValue_eq, hdown, powerOfTwo_of_le he, if_neg Bool.false_ne_true]
  split
  · next hzero =>
    rw [hzero]
    decide
  · next hne => exact mul_infinity hne

/-- Where the inverse power of two has vanished, a mantissa out of range has no number left. -/
theorem hexValue_vanished (hdown : n.scaledDown = true) (he : 1024 ≤ n.scale) :
    n.hexValue =
      if nearest n.mantissa.units 1 < infinityWord then ofUnits false 0 1 else nan true := by
  rw [n.hexValue_eq, hdown, powerOfTwo_of_le he, if_pos rfl]
  split
  · next hfinite =>
    rw [mul_exact hfinite exact_zero, Nat.mul_zero]
    exact ofUnits_congr false (by decide +kernel)
  · next hinfinite =>
    have hle := nearest_le n.mantissa.units 1
    rw [ofUnits_eq_infinity (Nat.le_antisymm hle (Nat.le_of_not_lt hinfinite))]
    decide

end Floating

/-! ### Which values are right -/

section Right

variable {n : Floating hexadecimal}

theorem Floating.number_nonneg : 0 ≤ n.number := by
  have h := n.mantissa.number_nonneg
  unfold number
  split
  · exact div_nonneg h (by positivity)
  · exact mul_nonneg h (by positivity)

/-- The fraction, in units. -/
theorem Floating.exists_number_eq : ∃ a b : Nat, 0 < b ∧ n.number = (a : ℚ) / b / one := by
  have hone := cast_one_pos.ne'
  unfold number Mantissa.number
  generalize hexNumber _ = s
  generalize n.mantissa.fractionDigits.length = f
  split
  · refine ⟨s * one, 16 ^ f * 2 ^ n.scale, Nat.mul_pos (Nat.pow_pos (by decide))
      (Nat.two_pow_pos _), ?_⟩
    push_cast
    field_simp
  · refine ⟨s * one * 2 ^ n.scale, 16 ^ f, Nat.pow_pos (by decide), ?_⟩
    push_cast
    field_simp

/-- What a fraction in units is rounded to is not negative, if it is not zero. -/
theorem nearest_ofUnits_iff {q : ℚ} {n d a b : Nat} (hb : 0 < b) (hq : q = (a : ℚ) / b / one) :
    Nearest q (ofUnits false n d) ↔ nearest n d = nearest a b := by
  rw [hq, nearest_iff hb]
  exact and_iff_left (.inr rfl)

/-- Numbers that two fractions are rounded to both tell that these are rounded alike. -/
theorem exists_nearest_iff {q : ℚ} {n d a b : Nat} (hd : 0 < d) (hb : 0 < b)
    (hq : q = (a : ℚ) / b / one) :
    (∃ x, Nearest ((n : ℚ) / d / one) x ∧ Nearest q x) ↔ nearest n d = nearest a b := by
  constructor
  · rintro ⟨x, h1, h2⟩
    rw [hq, nearest_iff hb] at h2
    rw [nearest_iff hd] at h1
    exact h1.1.symm.trans h2.1
  · intro h
    exact ⟨ofUnits false n d, (nearest_iff hd).mpr ⟨rfl, .inr rfl⟩,
      (nearest_ofUnits_iff hb hq).mpr h⟩

theorem Mantissa.kept_lt_iff (m : Mantissa hexadecimal) :
    m.kept < rangeEnd ↔ nearest m.units 1 < infinityWord := by
  rw [nearest_lt_iff Nat.one_pos, m.kept_eq]

theorem Mantissa.rangeEnd_le_kept_iff (m : Mantissa hexadecimal) :
    rangeEnd ≤ m.kept ↔ nearest m.units 1 = infinityWord := by
  rw [← not_lt, m.kept_lt_iff, Nat.not_lt]
  exact ⟨fun h => Nat.le_antisymm (nearest_le m.units 1) h, fun h => h.ge⟩

theorem Mantissa.kept_pos_iff (m : Mantissa hexadecimal) : 0 < m.kept ↔ m.units ≠ 0 := by
  rw [m.kept_eq, Nat.cast_one, div_one, div_pos_iff_of_pos_right cast_one_pos, Nat.cast_pos,
    Nat.pos_iff_ne_zero]

/-- The kept digits are rounded to their word. -/
theorem Mantissa.nearest_kept (m : Mantissa hexadecimal) :
    Nearest m.kept (ofUnits false m.units 1) :=
  (nearest_ofUnits_iff Nat.one_pos m.kept_eq).mpr rfl

theorem kept_mul_two_pow (n : Floating hexadecimal) :
    n.mantissa.kept * 2 ^ n.scale =
      ((n.mantissa.units * 2 ^ n.scale : Nat) : ℚ) / (1 : Nat) / one := by
  rw [n.mantissa.kept_eq]
  push_cast
  ring

/-- **Scaled up**, a value is right if the kept digits are rounded to the same number. -/
theorem nearest_up_iff (hdown : n.scaledDown = false) (he : n.scale < 1024) :
    Nearest n.number n.hexValue ↔
      ∃ x, Nearest (n.mantissa.kept * 2 ^ n.scale) x ∧ Nearest n.number x := by
  obtain ⟨a, b, hb, hnumber⟩ := n.exists_number_eq
  rw [kept_mul_two_pow, exists_nearest_iff Nat.one_pos hb hnumber, n.hexValue_up hdown he,
    nearest_ofUnits_iff hb hnumber]

/-- **Scaled down**, it is right if the kept digits, rounded twice, come to the same number. -/
theorem nearest_down_iff (hdown : n.scaledDown = true) (he : n.scale < 1024)
    (hkept : n.mantissa.kept < rangeEnd) :
    Nearest n.number n.hexValue ↔ ∃ m x, Nearest n.mantissa.kept m ∧
      Nearest (m.value / 2 ^ n.scale) x ∧ Nearest n.number x := by
  obtain ⟨a, b, hb, hnumber⟩ := n.exists_number_eq
  have hvalue : ∀ m, Nearest n.mantissa.kept m → m.value / 2 ^ n.scale =
      (Binary64.units (nearest n.mantissa.units 1) : ℚ) / (2 ^ n.scale : Nat) / one := by
    intro m hm
    rw [n.mantissa.kept_eq, nearest_iff Nat.one_pos] at hm
    rw [Binary64.value, signedUnits_eq hm.2, hm.1, Int.cast_natCast, cast_two_pow]
    ring
  rw [n.hexValue_down hdown he (n.mantissa.kept_lt_iff.mp hkept), nearest_ofUnits_iff hb hnumber,
    ← exists_nearest_iff (Nat.two_pow_pos _) hb hnumber]
  constructor
  · rintro ⟨x, h1, h2⟩
    have hm := n.mantissa.nearest_kept
    exact ⟨_, x, hm, by rwa [hvalue _ hm], h2⟩
  · rintro ⟨m, x, hm, h1, h2⟩
    exact ⟨x, by rwa [← hvalue m hm], h2⟩

theorem nearest_infinite_iff (hdown : n.scaledDown = true) (he : n.scale < 1024)
    (hkept : rangeEnd ≤ n.mantissa.kept) : Nearest n.number n.hexValue ↔ rangeEnd ≤ n.number := by
  rw [n.hexValue_infinite hdown he (n.mantissa.rangeEnd_le_kept_iff.mp hkept),
    nearest_infinity_iff Floating.number_nonneg]

/-- **Where the power of two is infinite**, a value is right out of range only. -/
theorem nearest_out_iff (hdown : n.scaledDown = false) (he : 1024 ≤ n.scale) :
    Nearest n.number n.hexValue ↔ 0 < n.mantissa.kept ∧ rangeEnd ≤ n.number := by
  rw [n.hexValue_out hdown he, n.mantissa.kept_pos_iff]
  split
  · next hzero => exact ⟨fun h => absurd h not_nearest_nan, fun h => absurd hzero h.1⟩
  · next hne => rw [nearest_infinity_iff Floating.number_nonneg, and_iff_right hne]

/-- **Where the inverse power of two has vanished**, it is right at zero only. -/
theorem nearest_vanished_iff (hdown : n.scaledDown = true) (he : 1024 ≤ n.scale) :
    Nearest n.number n.hexValue ↔ n.mantissa.kept < rangeEnd ∧ n.number ≤ 1 / 2 ^ 1075 := by
  rw [n.hexValue_vanished hdown he, n.mantissa.kept_lt_iff]
  split
  · next hfinite => rw [nearest_zero_iff Floating.number_nonneg, and_iff_right hfinite]
  · next hinfinite => exact ⟨fun h => absurd h not_nearest_nan, fun h => absurd h.1 hinfinite⟩

/-- **Which values are right**: those of the harmless numerals, and no others. -/
theorem hexValue_nearest_iff : Nearest n.number n.hexValue ↔ Harmless n := by
  constructor
  · intro h
    rcases hdown : n.scaledDown with _ | _ <;> rcases Nat.lt_or_ge n.scale 1024 with he | he
    · obtain ⟨x, hkept, hnumber⟩ := (nearest_up_iff hdown he).mp h
      exact .scaledUp hdown he hkept hnumber
    · obtain ⟨hkept, hrange⟩ := (nearest_out_iff hdown he).mp h
      exact .outOfRange hdown he hkept hrange
    · rcases lt_or_ge n.mantissa.kept rangeEnd with hkept | hkept
      · obtain ⟨m, x, hm, hx, hnumber⟩ := (nearest_down_iff hdown he hkept).mp h
        exact .scaledDown hdown he hkept hm hx hnumber
      · exact .infinite hdown he hkept ((nearest_infinite_iff hdown he hkept).mp h)
    · obtain ⟨hkept, hnumber⟩ := (nearest_vanished_iff hdown he).mp h
      exact .vanishing hdown he hkept hnumber
  · intro h
    cases h with
    | scaledUp hdown he hkept hnumber =>
      exact (nearest_up_iff hdown he).mpr ⟨_, hkept, hnumber⟩
    | scaledDown hdown he hkept hm hx hnumber =>
      exact (nearest_down_iff hdown he hkept).mpr ⟨_, _, hm, hx, hnumber⟩
    | infinite hdown he hkept hnumber =>
      exact (nearest_infinite_iff hdown he hkept).mpr hnumber
    | outOfRange hdown he hkept hnumber => exact (nearest_out_iff hdown he).mpr ⟨hkept, hnumber⟩
    | vanishing hdown he hkept hnumber =>
      exact (nearest_vanished_iff hdown he).mpr ⟨hkept, hnumber⟩

/-- A numeral of up to 53 bits that all count, scaled by a power of two in range, is harmless. -/
theorem harmless_of_kept (hkept : n.mantissa.kept = n.mantissa.number) (he : n.scale < 1024)
    (hbits : n.scaledDown = true → n.mantissa.keptDigits.1 < 2 ^ 53) : Harmless n := by
  obtain ⟨a, b, hb, hnumber⟩ := n.exists_number_eq
  have hround : Nearest n.number (ofUnits false a b) :=
    (nearest_ofUnits_iff hb hnumber).mpr rfl
  rcases hdown : n.scaledDown with _ | _
  · have hsame : n.mantissa.kept * 2 ^ n.scale = n.number := by
      rw [Floating.number, if_neg (by simp [hdown]), hkept]
    exact .scaledUp hdown he (by rwa [hsame]) hround
  · have hexact : Exact n.mantissa.units := by
      have hnil : n.mantissa.keptDigits.2 = [] := by
        by_contra hne
        have := le_of_keep (Prod.eta n.mantissa.keptDigits).symm hne
        have := hbits hdown
        omega
      have hlimit : placeLimit = 268 := rfl
      rw [Mantissa.units, keptUnits, ← Mantissa.keptDigits, hnil]
      exact exact_of_lt (hbits hdown) (by rw [List.length_nil]; omega)
    have hvalue : (ofUnits false n.mantissa.units 1).value = n.mantissa.kept := by
      rw [n.mantissa.kept_eq, Binary64.value, signedUnits_ofUnits, hexact.2, Nat.cast_one, div_one,
        Int.cast_natCast]
    have hsame : (ofUnits false n.mantissa.units 1).value / 2 ^ n.scale = n.number := by
      rw [Floating.number, if_pos hdown, hvalue, hkept]
    exact .scaledDown hdown he (n.mantissa.kept_lt_iff.mpr hexact.1) n.mantissa.nearest_kept
      (by rwa [hsame]) hround

/-- The value is no number where the power of two is out of range, and the kept digits are zero or
out of range on the other side. -/
theorem isNan_hexValue_iff :
    n.hexValue.isNan = true ↔ 1024 ≤ n.scale ∧
      (if n.scaledDown then rangeEnd ≤ n.mantissa.kept else n.mantissa.kept = 0) := by
  have hnonneg : 0 ≤ n.mantissa.kept := by
    rw [Mantissa.kept]
    positivity
  rcases hdown : n.scaledDown with _ | _ <;> rcases Nat.lt_or_ge n.scale 1024 with he | he
  · rw [n.hexValue_up hdown he, isNan_ofUnits]
    exact ⟨nofun, fun h => absurd h.1 (Nat.not_le.mpr he)⟩
  · rw [n.hexValue_out hdown he, if_neg Bool.false_ne_true, and_iff_right he]
    have hzero : n.mantissa.kept = 0 ↔ n.mantissa.units = 0 := by
      rw [← not_iff_not, ← ne_eq n.mantissa.units, ← n.mantissa.kept_pos_iff,
        hnonneg.lt_iff_ne, ne_comm]
    rw [hzero]
    split
    · next h => exact ⟨fun _ => h, fun _ => rfl⟩
    · next h => exact ⟨nofun, fun hzero => absurd hzero h⟩
  · refine ⟨fun h => ?_, fun h => absurd h.1 (Nat.not_le.mpr he)⟩
    rcases lt_or_ge n.mantissa.kept rangeEnd with hkept | hkept
    · rw [n.hexValue_down hdown he (n.mantissa.kept_lt_iff.mp hkept), isNan_ofUnits] at h
      cases h
    · rw [n.hexValue_infinite hdown he (n.mantissa.rangeEnd_le_kept_iff.mp hkept)] at h
      exact absurd h (by decide)
  · rw [n.hexValue_vanished hdown he, if_pos rfl, and_iff_right he, ← not_lt,
      n.mantissa.kept_lt_iff]
    split
    · next h => exact ⟨fun hnan => absurd hnan (by decide), fun hnot => absurd h hnot⟩
    · next h => exact ⟨fun _ => h, fun _ => by decide⟩

end Right

/-! ### Results -/

/-- A fraction with a sign before it. -/
def signed (s : Sign) (q : ℚ) : ℚ :=
  if s.negative then -q else q

theorem nearest_signed_iff {s : Sign} {q : ℚ} {x : Binary64} :
    Nearest (signed s q) (if s.negative then x.neg else x) ↔ Nearest q x := by
  unfold signed
  split
  · have hneg : x.neg.neg = x := by simp [Binary64.neg]
    refine ⟨fun h => ?_, Nearest.neg⟩
    have h := h.neg
    rwa [neg_neg, hneg] at h
  · rfl

/-- A result whose longest numeral is hexadecimal has the value of that numeral. -/
theorem value_of_longest {n : Numeral} {bs : Bytes}
    (h : Longest text n (Utf8.encode (resultText bs))) : Prefix.value bs = n.value := by
  have hscan := scan?_eq_some_iff.mpr ⟨n, h, rfl⟩
  rw [scan?_resultText] at hscan
  rw [Prefix.value, hscan]

/-- **When a hexadecimal result has the value nearest to what it denotes**: if its numeral is
harmless, and only then. That is so if all digits count, they have no more than 53 bits, and the
power of two is below 2¹⁰²⁴. And the value is no number where the power of two is out of range and
the kept digits are zero, or out of range on the other side. -/
theorem hexadecimal_nearest_iff {n : Numeral} {mark : UInt8} {hmark : lowerByte mark = 0x78}
    {number : Floating hexadecimal} {bs : Bytes} (hn : n.magnitude = .hex mark hmark number)
    (h : Longest text n (Utf8.encode (resultText bs))) :
    (Nearest (signed n.sign number.number) (Prefix.value bs) ↔ Harmless number) ∧
    (number.mantissa.kept = number.mantissa.number → number.scale < 1024 →
      (number.scaledDown = true → number.mantissa.keptDigits.1 < 2 ^ 53) →
      Nearest (signed n.sign number.number) (Prefix.value bs)) ∧
    ((Prefix.value bs).isNan = true ↔ 1024 ≤ number.scale ∧
      (if number.scaledDown then rangeEnd ≤ number.mantissa.kept
        else number.mantissa.kept = 0)) := by
  have hvalue : Prefix.value bs =
      if n.sign.negative then number.hexValue.neg else number.hexValue := by
    rw [value_of_longest h, value, hn, Magnitude.value]
  have hnearest : Nearest (signed n.sign number.number) (Prefix.value bs) ↔ Harmless number := by
    rw [hvalue, nearest_signed_iff, hexValue_nearest_iff]
  have hnan : (Prefix.value bs).isNan = number.hexValue.isNan := by
    rw [hvalue]
    split <;> rfl
  refine ⟨hnearest, fun hkept he hbits => ?_, ?_⟩
  · exact hnearest.mpr (harmless_of_kept hkept he hbits)
  · rw [hnan, isNan_hexValue_iff]

/-! ### Numerals that are read right, and numerals that are not -/

theorem longest_text (n : Numeral) : Longest text n n.text :=
  ⟨List.prefix_rfl, fun _ h => h.length_le⟩

/-- The numeral with a sign and `0x` before it. -/
def hexNumeral (s : Sign) (number : Floating hexadecimal) : Numeral :=
  ⟨s, .hex 0x78 (by decide) number⟩

/-- `1.8p1` -/
def three : Floating hexadecimal where
  mantissa := ⟨ascii "1", some (ascii "8"), List.all_eq_true.mp rfl, List.all_eq_true.mp rfl,
    by decide⟩
  power := some ⟨0x70, .none, ascii "1", rfl, List.all_eq_true.mp rfl, by decide⟩

theorem minus_three_right :
    Longest text (hexNumeral .minus three) (Utf8.encode (resultText (ascii "-0x1.8p1"))) ∧
    signed .minus three.number = -3 ∧ Nearest (-3) (Prefix.value (ascii "-0x1.8p1")) := by
  have hlongest : Longest text (hexNumeral .minus three)
      (Utf8.encode (resultText (ascii "-0x1.8p1"))) := longest_text _
  have hkept : three.mantissa.kept = three.mantissa.number :=
    Mantissa.kept_eq_number (by decide) (by decide)
  have hnumber : signed .minus three.number = -3 := by
    have hnegative : Sign.negative .minus = true := rfl
    have hdigits : hexNumber
        (three.mantissa.wholeDigits ++ three.mantissa.fractionDigits) = 24 := by
      decide
    have hplaces : three.mantissa.fractionDigits.length = 1 := by decide
    have hscale : three.scale = 1 := by decide +kernel
    rw [signed, if_pos hnegative, Floating.number, if_neg (by decide), Mantissa.number, hdigits,
      hplaces, hscale]
    norm_num
  have h := (hexadecimal_nearest_iff rfl hlongest).2.1 hkept (by decide +kernel) (by decide +kernel)
  rw [← hnumber]
  exact ⟨hlongest, rfl, h⟩

/-- `0p1024` -/
def zeroOutOfRange : Floating hexadecimal where
  mantissa := ⟨ascii "0", none, List.all_eq_true.mp rfl, nofun, by decide⟩
  power := some ⟨0x70, .none, ascii "1024", rfl, List.all_eq_true.mp rfl, by decide⟩

/-- `1p-1074` -/
def leastPositive : Floating hexadecimal where
  mantissa := ⟨ascii "1", none, List.all_eq_true.mp rfl, nofun, by decide⟩
  power := some ⟨0x70, .minus, ascii "1074", rfl, List.all_eq_true.mp rfl, by decide⟩

/-- `1.000000000000081`: what lies halfway behind one, and something more. -/
def aboveHalfway : Floating hexadecimal where
  mantissa := ⟨ascii "1", some (ascii "000000000000081"), List.all_eq_true.mp rfl,
    List.all_eq_true.mp rfl, by decide⟩
  power := none

theorem zeroOutOfRange_number : zeroOutOfRange.number = 0 := by
  have hdigits : hexNumber
      (zeroOutOfRange.mantissa.wholeDigits ++ zeroOutOfRange.mantissa.fractionDigits) = 0 := by
    decide
  rw [Floating.number, if_neg (by decide), Mantissa.number, hdigits, Nat.cast_zero, zero_div,
    zero_mul]

theorem leastPositive_number : leastPositive.number = 1 / 2 ^ 1074 := by
  have hdigits : hexNumber
      (leastPositive.mantissa.wholeDigits ++ leastPositive.mantissa.fractionDigits) = 1 := by
    decide
  have hplaces : leastPositive.mantissa.fractionDigits.length = 0 := by decide
  have hscale : leastPositive.scale = 1074 := by decide +kernel
  rw [Floating.number, if_pos (by decide), Mantissa.number, hdigits, hplaces, hscale, pow_zero,
    Nat.cast_one, div_one]

theorem aboveHalfway_number :
    aboveHalfway.number = ((0x1000000000000081 * one : Nat) : ℚ) / (16 ^ 15 : Nat) / one := by
  have hone := cast_one_pos.ne'
  have hdigits : hexNumber
      (aboveHalfway.mantissa.wholeDigits ++ aboveHalfway.mantissa.fractionDigits) =
        0x1000000000000081 := by
    decide
  have hplaces : aboveHalfway.mantissa.fractionDigits.length = 15 := by decide
  rw [Floating.number, if_neg (by decide), show aboveHalfway.scale = 0 from rfl, pow_zero, mul_one,
    Mantissa.number, hdigits, hplaces]
  push_cast
  field_simp
  norm_num

/-- **Values that are not the nearest**: a zero is no number when the power of two is out of range,
the least positive number is zero, and digits that decide between two numbers are lost. -/
theorem hexadecimal_misread :
    (Longest text (hexNumeral .none zeroOutOfRange)
        (Utf8.encode (resultText (ascii "0x0p1024"))) ∧
      zeroOutOfRange.number = 0 ∧ (Prefix.value (ascii "0x0p1024")).isNan = true ∧
      ¬ Nearest zeroOutOfRange.number (Prefix.value (ascii "0x0p1024"))) ∧
    (Longest text (hexNumeral .none leastPositive)
        (Utf8.encode (resultText (ascii "0x1p-1074"))) ∧
      leastPositive.number = 1 / 2 ^ 1074 ∧ Prefix.value (ascii "0x1p-1074") = .zero ∧
      ¬ Nearest leastPositive.number (Prefix.value (ascii "0x1p-1074"))) ∧
    (Longest text (hexNumeral .none aboveHalfway)
        (Utf8.encode (resultText (ascii "0x1.000000000000081"))) ∧
      Prefix.value (ascii "0x1.000000000000081") = .ofNat 1 ∧
      ¬ Nearest aboveHalfway.number (Prefix.value (ascii "0x1.000000000000081"))) := by
  have hnan : Prefix.value (ascii "0x0p1024") = .nan true := by decide +kernel
  have hzero : Prefix.value (ascii "0x1p-1074") = .zero := by decide +kernel
  have hone : Prefix.value (ascii "0x1.000000000000081") = .ofNat 1 := by decide +kernel
  refine ⟨⟨longest_text _, zeroOutOfRange_number, ?_, ?_⟩,
    ⟨longest_text _, leastPositive_number, hzero, ?_⟩, longest_text _, hone, ?_⟩
  · rw [hnan]
    decide
  · rw [hnan]
    exact not_nearest_nan
  · have hlt : (1 : ℚ) / 2 ^ 1075 < 1 / 2 ^ 1074 :=
      one_div_lt_one_div_of_lt (by positivity) (pow_lt_pow_right₀ one_lt_two (by decide))
    have hunits : Binary64.zero = ofUnits false 0 1 := by
      rw [Binary64.zero, ofNat_eq, Nat.zero_mul]
    rw [hzero, hunits, leastPositive_number, nearest_zero_iff (by positivity)]
    exact not_le.mpr hlt
  · rw [hone, ofNat_eq, nearest_ofUnits_iff (by decide) aboveHalfway_number]
    decide +kernel

end ImageScoring.Numeral
