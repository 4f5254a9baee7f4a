import ImageScoring.Proofs.Number.Value
import Mathlib.Tactic.Linarith
import Mathlib.Order.Monotone.Basic
import Mathlib.Algebra.Order.Field.Basic

/-!
# Rounding to the nearest number

`Nearest q x` says that the binary64 number `x` is what a fraction is rounded to: the finite number
nearest to it, the even one of two that are equally near, and an infinity for what lies beyond the
last finite number by half a step or more.

Words are ordered as the numbers they stand for, so a word is nearest to what lies between the
points halfway to its neighbours (`Cell`). `nearest` finds that word (`cell_nearest`), and
`nearest_iff` says that it rounds every fraction rightly.
-/

namespace ImageScoring.Binary64

/-! ### The specification -/

/-- Where the range ends: halfway between the largest finite number and the power of two behind
it. -/
def rangeEnd : ℚ :=
  2 ^ 1024 - 2 ^ 970

/-- The number that a fraction is rounded to. -/
inductive Nearest (q : ℚ) (x : Binary64) : Prop where
  | finite : |q| < rangeEnd → x.magnitude < infinityWord →
      (∀ y : Binary64, y.magnitude < infinityWord → |q - x.value| ≤ |q - y.value|) →
      (∀ y : Binary64, y.magnitude < infinityWord → y.value ≠ x.value →
        |q - y.value| = |q - x.value| → x.magnitude % 2 = 0) →
      Nearest q x
  | infinite : rangeEnd ≤ |q| → x.magnitude = infinityWord → (x.negative = true ↔ q < 0) →
      Nearest q x

/-! ### Words and their units -/

/-- A significand of up to 53 bits, shifted: its word is found by one addition. -/
theorem units_word {a s : Nat} (h : a = 0 ∨ 2 ^ 52 ≤ s) (hs : s ≤ 2 ^ 53) :
    units (a * 2 ^ 52 + s) = s * 2 ^ a := by
  unfold units
  dsimp only
  rcases Nat.lt_or_ge s (2 ^ 52) with hlow | hlow
  · obtain rfl : a = 0 := by omega
    rw [if_pos (by omega), Nat.pow_zero]
    omega
  rcases Nat.lt_or_ge s (2 ^ 53) with hhigh | hhigh
  · have hexponent : (a * 2 ^ 52 + s) / 2 ^ 52 = a + 1 := by omega
    have hfraction : (a * 2 ^ 52 + s) % 2 ^ 52 = s - 2 ^ 52 := by omega
    rw [hexponent, hfraction, if_neg (by omega), Nat.add_sub_cancel, Nat.add_sub_cancel' hlow]
  · obtain rfl : s = 2 ^ 53 := by omega
    have hexponent : (a * 2 ^ 52 + 2 ^ 53) / 2 ^ 52 = a + 2 := by omega
    have hfraction : (a * 2 ^ 52 + 2 ^ 53) % 2 ^ 52 = 0 := by omega
    rw [hexponent, hfraction, if_neg (by omega), show a + 2 - 1 = a + 1 from rfl, Nat.pow_succ]
    omega

theorem cast_two_pow (k : Nat) : ((2 ^ k : Nat) : ℚ) = 2 ^ k := by
  rw [Nat.cast_pow, Nat.cast_ofNat]

theorem cast_units_word {a s : Nat} (h : a = 0 ∨ 2 ^ 52 ≤ s) (hs : s ≤ 2 ^ 53) :
    (units (a * 2 ^ 52 + s) : ℚ) = s * 2 ^ a := by
  rw [units_word h hs, Nat.cast_mul, cast_two_pow]

/-- Behind a word stands that of the next significand, unless this one is the last of its binade. -/
theorem cast_units_succ {a s : Nat} (h : a = 0 ∨ 2 ^ 52 ≤ s) (hs : s < 2 ^ 53) :
    (units (a * 2 ^ 52 + s + 1) : ℚ) = (s + 1) * 2 ^ a := by
  rw [Nat.add_assoc, cast_units_word (h.imp id fun h => h.trans (Nat.le_succ s)) hs,
    Nat.cast_succ]

/-- Before a word stands that of the significand before, unless this one is the first. -/
theorem cast_units_pred {a s v : Nat} (h : a = 0 ∨ 2 ^ 52 < s) (hs : s ≤ 2 ^ 53)
    (hv : v + 1 = a * 2 ^ 52 + s) : (units v : ℚ) = (s - 1) * 2 ^ a := by
  rcases Nat.eq_zero_or_pos s with rfl | hpos
  · omega
  obtain ⟨t, rfl⟩ : ∃ t, s = t + 1 := ⟨s - 1, by omega⟩
  obtain rfl : v = a * 2 ^ 52 + t := by omega
  rw [cast_units_word (h.imp id Nat.le_of_lt_succ) (Nat.le_of_succ_le hs), Nat.cast_succ,
    add_sub_cancel_right]

theorem cast_one : (one : ℚ) = 2 ^ 1074 := by
  unfold one
  exact cast_two_pow 1074

theorem cast_one_pos : (0 : ℚ) < one :=
  Nat.cast_pos.mpr one_pos

theorem exists_word (w : Nat) :
    ∃ a s, (a = 0 ∨ 2 ^ 52 ≤ s) ∧ s < 2 ^ 53 ∧ w = a * 2 ^ 52 + s := by
  rcases Nat.lt_or_ge w (2 ^ 53) with hw | hw
  · exact ⟨0, w, .inl rfl, hw, by omega⟩
  · exact ⟨w / 2 ^ 52 - 1, w % 2 ^ 52 + 2 ^ 52, .inr (by omega), by omega, by omega⟩

theorem units_lt_units_succ (w : Nat) : units w < units (w + 1) := by
  obtain ⟨a, s, h, hs, rfl⟩ := exists_word w
  rw [Nat.add_assoc, units_word h hs.le, units_word (h.imp id fun h => h.trans (Nat.le_succ s)) hs]
  exact Nat.mul_lt_mul_of_pos_right (Nat.lt_succ_self s) (Nat.two_pow_pos a)

theorem units_strictMono : StrictMono units :=
  strictMono_nat_of_lt_succ units_lt_units_succ

theorem cast_units_le {v w : Nat} (h : v ≤ w) : (units v : ℚ) ≤ units w :=
  Nat.cast_le.mpr (units_strictMono.monotone h)

theorem cast_units_lt {v w : Nat} (h : v < w) : (units v : ℚ) < units w :=
  Nat.cast_lt.mpr (units_strictMono h)

theorem eq_of_cast_units_eq {v w : Nat} (h : (units v : ℚ) = units w) : v = w :=
  units_strictMono.injective (Nat.cast_injective h)

theorem units_zero : units 0 = 0 := by decide

theorem units_pos {w : Nat} (h : 0 < w) : 0 < units w := by
  have := units_strictMono h
  omega

/-! ### Rounding to a whole number -/

/-- The whole number nearest to a fraction, the even one of two. -/
theorem roundHalfEven_spec {n d : Nat} (hd : 0 < d) :
    (2 * roundHalfEven n d * d ≤ 2 * n + d ∧ 2 * n ≤ (2 * roundHalfEven n d + 1) * d) ∧
    (2 * roundHalfEven n d * d = 2 * n + d ∨ 2 * n = (2 * roundHalfEven n d + 1) * d →
      roundHalfEven n d % 2 = 0) := by
  have hdiv := Nat.div_add_mod n d
  have hmod := Nat.mod_lt n hd
  unfold roundHalfEven
  dsimp only
  generalize n / d = q at *
  generalize n % d = r at *
  have h1 : (2 * q + 1) * d = 2 * (d * q) + d := by ring
  have h2 : 2 * q * d = 2 * (d * q) := by ring
  have h3 : (2 * (q + 1) + 1) * d = 2 * (d * q) + 3 * d := by ring
  have h4 : 2 * (q + 1) * d = 2 * (d * q) + 2 * d := by ring
  split_ifs with h
  · rw [h1, h2]
    omega
  · rw [h3, h4]
    omega

/-- A whole number within half of a fraction is what the fraction is rounded to, unless it is
exactly half away. -/
theorem roundHalfEven_eq {n d r : Nat} (hd : 0 < d) (hlow : 2 * r * d < 2 * n + d)
    (hhigh : 2 * n < (2 * r + 1) * d) : roundHalfEven n d = r := by
  obtain ⟨⟨hle, hge⟩, -⟩ := roundHalfEven_spec (n := n) hd
  generalize roundHalfEven n d = s at hle hge
  have h1 : (2 * s) * d < (2 * (r + 1)) * d := by
    have : (2 * (r + 1)) * d = (2 * r + 1) * d + d := by ring
    omega
  have h2 : (2 * r) * d < (2 * (s + 1)) * d := by
    have : (2 * (s + 1)) * d = (2 * s + 1) * d + d := by ring
    omega
  have := Nat.lt_of_mul_lt_mul_right h1
  have := Nat.lt_of_mul_lt_mul_right h2
  omega

theorem roundHalfEven_mul (r : Nat) {d : Nat} (hd : 0 < d) : roundHalfEven (r * d) d = r := by
  have h1 : 2 * (r * d) = 2 * r * d := by ring
  have h2 : (2 * r + 1) * d = 2 * r * d + d := by ring
  exact roundHalfEven_eq hd (by omega) (by omega)

/-- Only the fraction counts, not how it is written. -/
theorem roundHalfEven_mul_mul (n d : Nat) {c : Nat} (hc : 0 < c) :
    roundHalfEven (n * c) (d * c) = roundHalfEven n d := by
  unfold roundHalfEven
  rw [Nat.mul_div_mul_right n d hc, Nat.mul_mod_mul_right]
  have hlt : 2 * (n % d * c) < d * c ↔ 2 * (n % d) < d := by
    rw [← Nat.mul_assoc, Nat.mul_lt_mul_right hc]
  have heq : 2 * (n % d * c) = d * c ↔ 2 * (n % d) = d := by
    rw [← Nat.mul_assoc, Nat.mul_left_inj hc.ne']
  simp only [hlt, heq]

/-! ### Rounding to a word -/

/-- The binade of a fraction: how many bits are dropped of it so that 53 are left, none of a
fraction with fewer. -/
def Binade (n d a : Nat) : Prop :=
  (a = 0 ∨ 2 ^ (52 + a) * d ≤ n) ∧ n < 2 ^ (53 + a) * d

theorem exists_binade (n : Nat) {d : Nat} (hd : 0 < d) : Binade n d (Nat.log2 (n / d) - 52) := by
  constructor
  · rcases Nat.eq_zero_or_pos (Nat.log2 (n / d) - 52) with h | h
    · exact .inl h
    · right
      rw [← Nat.le_div_iff_mul_le hd, Nat.add_sub_of_le (by omega)]
      refine Nat.log2_self_le fun hzero => ?_
      rw [hzero, Nat.log2_zero] at h
      omega
  · rw [← Nat.div_lt_iff_lt_mul hd]
    exact Nat.lt_log2_self.trans_le (Nat.pow_le_pow_right (by decide) (by omega))

theorem Binade.eq {n d a : Nat} (hd : 0 < d) (h : Binade n d a) : Nat.log2 (n / d) - 52 = a := by
  obtain ⟨hlow, hhigh⟩ := h
  rw [← Nat.div_lt_iff_lt_mul hd] at hhigh
  rcases Nat.eq_zero_or_pos (n / d) with hzero | hpos
  · rcases hlow with rfl | hlow
    · rw [hzero]
      rfl
    · rw [← Nat.le_div_iff_mul_le hd, hzero] at hlow
      have := Nat.two_pow_pos (52 + a)
      omega
  · have hlt := (Nat.log2_lt hpos.ne').mpr hhigh
    rcases hlow with rfl | hlow
    · omega
    · rw [← Nat.le_div_iff_mul_le hd, ← Nat.le_log2 hpos.ne'] at hlow
      omega

theorem nearest_eq {n d a : Nat} (hd : 0 < d) (h : Binade n d a) :
    nearest n d = min (a * 2 ^ 52 + roundHalfEven n (d * 2 ^ a)) infinityWord := by
  rw [nearest, h.eq hd]

theorem nearest_mul_mul (n d : Nat) {c : Nat} (hc : 0 < c) :
    nearest (n * c) (d * c) = nearest n d := by
  unfold nearest
  rw [Nat.mul_div_mul_right n d hc]
  dsimp only
  rw [Nat.mul_right_comm d c, roundHalfEven_mul_mul _ _ hc]

/-- The significand of a fraction has 53 bits, or the next power of two if it is rounded up that
far. -/
theorem significand_bounds {n d a : Nat} (hd : 0 < d) (h : Binade n d a) :
    (a = 0 ∨ 2 ^ 52 ≤ roundHalfEven n (d * 2 ^ a)) ∧ roundHalfEven n (d * 2 ^ a) ≤ 2 ^ 53 := by
  obtain ⟨hlow, hhigh⟩ := h
  have hd' : 0 < d * 2 ^ a := Nat.mul_pos hd (Nat.two_pow_pos a)
  obtain ⟨⟨hle, hge⟩, -⟩ := roundHalfEven_spec (n := n) hd'
  generalize roundHalfEven n (d * 2 ^ a) = s at *
  have hpow : ∀ k, 2 ^ (k + a) * d = 2 ^ k * (d * 2 ^ a) := fun k => by rw [Nat.pow_add]; ring
  rw [hpow] at hlow hhigh
  generalize d * 2 ^ a = e at *
  constructor
  · refine hlow.imp id fun hlow => ?_
    by_contra hs
    have h1 : (2 * s + 1) * e < 2 * 2 ^ 52 * e := Nat.mul_lt_mul_of_pos_right (by omega) hd'
    have h2 : 2 * 2 ^ 52 * e = 2 * (2 ^ 52 * e) := Nat.mul_assoc _ _ _
    omega
  · by_contra hs
    have h1 : (2 * 2 ^ 53 + 2) * e ≤ 2 * s * e := Nat.mul_le_mul_right e (by omega)
    have h2 : (2 * 2 ^ 53 + 2) * e = 2 * (2 ^ 53 * e) + 2 * e := by ring
    omega

/-! ### What a word is nearest to -/

/-- The fraction `u`, in units, is nearest to a word: it lies between the points halfway to the
neighbours of the word, and on one of these points only if the word is even. -/
structure Cell (u : ℚ) (w : Nat) : Prop where
  low : ∀ v, v + 1 = w → (units v + units w : ℚ) ≤ 2 * u
  high : 2 * u ≤ units w + units (w + 1)
  even_of_low : ∀ v, v + 1 = w → (units v + units w : ℚ) = 2 * u → w % 2 = 0
  even_of_high : 2 * u = units w + units (w + 1) → w % 2 = 0

/-- Rounding moves a fraction by half a step at most, and so far only to an even significand. -/
theorem half_step {n d a : Nat} (hd : 0 < d) :
    ((2 * roundHalfEven n (d * 2 ^ a) - 1) * 2 ^ a ≤ 2 * ((n : ℚ) / d) ∧
      2 * ((n : ℚ) / d) ≤ (2 * roundHalfEven n (d * 2 ^ a) + 1) * 2 ^ a) ∧
    ((2 * roundHalfEven n (d * 2 ^ a) - 1) * 2 ^ a = 2 * ((n : ℚ) / d) ∨
      2 * ((n : ℚ) / d) = (2 * roundHalfEven n (d * 2 ^ a) + 1) * 2 ^ a →
        roundHalfEven n (d * 2 ^ a) % 2 = 0) := by
  obtain ⟨⟨hle, hge⟩, heven⟩ :=
    roundHalfEven_spec (n := n) (Nat.mul_pos hd (Nat.two_pow_pos a))
  generalize roundHalfEven n (d * 2 ^ a) = s at *
  have hd' : (0 : ℚ) < d := by exact_mod_cast hd
  have hn : (n : ℚ) = d * ((n : ℚ) / d) := by field_simp
  generalize (n : ℚ) / d = u at *
  have hcast : (((2 * s * (d * 2 ^ a) : Nat) : ℚ) = d * (2 * s * 2 ^ a)) ∧
      (((2 * n + d * 2 ^ a : Nat) : ℚ) = d * (2 * u + 2 ^ a)) ∧
      (((2 * n : Nat) : ℚ) = d * (2 * u)) ∧
      ((((2 * s + 1) * (d * 2 ^ a) : Nat) : ℚ) = d * ((2 * s + 1) * 2 ^ a)) := by
    push_cast
    rw [hn]
    refine ⟨?_, ?_, ?_, ?_⟩ <;> ring
  obtain ⟨h1, h2, h3, h4⟩ := hcast
  rw [← @Nat.cast_le ℚ, h1, h2, mul_le_mul_iff_right₀ hd'] at hle
  rw [← @Nat.cast_le ℚ, h3, h4, mul_le_mul_iff_right₀ hd'] at hge
  rw [← @Nat.cast_inj ℚ, h1, h2, ← @Nat.cast_inj ℚ, h3, h4, mul_right_inj' hd'.ne',
    mul_right_inj' hd'.ne'] at heven
  refine ⟨⟨by linarith, hge⟩, fun h => heven (h.imp (fun h => by linarith) id)⟩

theorem cell_rounded {n d a : Nat} (hd : 0 < d) (h : Binade n d a) :
    Cell ((n : ℚ) / d) (a * 2 ^ 52 + roundHalfEven n (d * 2 ^ a)) := by
  obtain ⟨hlow, hhigh⟩ := significand_bounds hd h
  obtain ⟨⟨hle, hge⟩, heven⟩ := half_step (n := n) (a := a) hd
  have hd' : (0 : ℚ) < d := by exact_mod_cast hd
  have hbelow : a = 0 ∨ (2 : ℚ) ^ 52 * 2 ^ a ≤ (n : ℚ) / d := by
    refine h.1.imp id fun h => ?_
    rw [le_div_iff₀ hd', ← pow_add]
    exact_mod_cast h
  have habove : (n : ℚ) / d < 2 ^ 53 * 2 ^ a := by
    rw [div_lt_iff₀ hd', ← pow_add]
    exact_mod_cast h.2
  generalize roundHalfEven n (d * 2 ^ a) = s at *
  generalize (n : ℚ) / d = u at *
  have hunits := cast_units_word hlow hhigh
  have hparity : s % 2 = 0 → (a * 2 ^ 52 + s) % 2 = 0 := by omega
  -- below stands the next smaller significand, unless this one is the least of its binade
  have hlower : ∀ v, v + 1 = a * 2 ^ 52 + s →
      (units v : ℚ) = (s - 1) * 2 ^ a ∨ (units v + units (a * 2 ^ 52 + s) : ℚ) < 2 * u := by
    intro v hv
    by_cases hs : a = 0 ∨ 2 ^ 52 < s
    · exact .inl (cast_units_pred hs hhigh hv)
    · right
      obtain ⟨ha, hs⟩ := not_or.mp hs
      obtain rfl : s = 2 ^ 52 := by omega
      have hlt := cast_units_lt (show v < a * 2 ^ 52 + 2 ^ 52 by omega)
      rw [hunits] at hlt ⊢
      have := hbelow.resolve_left ha
      push_cast at hlt ⊢
      linarith
  have hupper : (units (a * 2 ^ 52 + s + 1) : ℚ) = (s + 1) * 2 ^ a ∨
      2 * u < units (a * 2 ^ 52 + s) + units (a * 2 ^ 52 + s + 1) := by
    rcases Nat.lt_or_ge s (2 ^ 53) with hs | hs
    · exact .inl (cast_units_succ hlow hs)
    · right
      obtain rfl : s = 2 ^ 53 := by omega
      have hlt := cast_units_lt (Nat.lt_succ_self (a * 2 ^ 52 + 2 ^ 53))
      rw [hunits] at hlt ⊢
      push_cast at hlt ⊢
      linarith
  constructor
  · intro v hv
    rcases hlower v hv with h | h
    · rw [h, hunits]
      linarith
    · exact h.le
  · rcases hupper with h | h
    · rw [h, hunits]
      linarith
    · exact h.le
  · intro v hv heq
    rcases hlower v hv with h | h
    · rw [h, hunits] at heq
      exact hparity (heven (.inl (by linarith)))
    · exact absurd heq h.ne
  · intro heq
    rcases hupper with h | h
    · rw [h, hunits] at heq
      exact hparity (heven (.inr (by linarith)))
    · exact absurd heq h.ne

/-- The range ends halfway between the last finite word and that of infinity. -/
theorem units_infinityWord :
    (units (infinityWord - 1) + units infinityWord : ℚ) = 2 * (rangeEnd * one) := by
  have hlast : infinityWord - 1 = 2045 * 2 ^ 52 + (2 ^ 53 - 1) := by decide
  have hinfinity : infinityWord = 2045 * 2 ^ 52 + 2 ^ 53 := by decide
  have h1 : (2 : ℚ) ^ 2045 = 2 * 2 ^ 970 * 2 ^ 1074 := by rw [← pow_succ', ← pow_add]
  have h2 : (2 : ℚ) ^ 1024 = 2 ^ 54 * 2 ^ 970 := by rw [← pow_add]
  rw [hlast, cast_units_word (.inr (by decide)) (by decide), hinfinity,
    cast_units_word (.inr (by decide)) (by decide), rangeEnd, cast_one, h1, h2]
  generalize (2 : ℚ) ^ 970 = x
  generalize (2 : ℚ) ^ 1074 = y
  norm_num
  ring

theorem cell_nearest {n d : Nat} (hd : 0 < d) (h : nearest n d < infinityWord) :
    Cell ((n : ℚ) / d) (nearest n d) := by
  have hbinade := exists_binade n hd
  have hcell := cell_rounded hd hbinade
  rw [nearest_eq hd hbinade] at h ⊢
  rwa [Nat.min_eq_left (by omega)]

theorem rangeEnd_le_of_nearest {n d : Nat} (hd : 0 < d) (h : nearest n d = infinityWord) :
    rangeEnd * one ≤ (n : ℚ) / d := by
  have hbinade := exists_binade n hd
  have hcell := cell_rounded hd hbinade
  rw [nearest_eq hd hbinade] at h
  generalize _ * 2 ^ 52 + _ = w at h hcell
  have hpos : 0 < infinityWord := by decide
  have hw : infinityWord ≤ w := by omega
  have hlow := hcell.low (w - 1) (by omega)
  have h1 := cast_units_le (show infinityWord - 1 ≤ w - 1 by omega)
  have h2 := cast_units_le hw
  have := units_infinityWord
  linarith

/-- What a finite word is nearest to is in range. -/
theorem Cell.lt_rangeEnd {u : ℚ} {w : Nat} (h : Cell u w) (hw : w < infinityWord) :
    u < rangeEnd * one := by
  have h1 := cast_units_le (show w ≤ infinityWord - 1 by omega)
  have h2 := cast_units_le (Nat.succ_le_of_lt hw)
  have hend := units_infinityWord
  have hhigh := h.high
  by_contra hu
  have hw' : w = infinityWord - 1 := eq_of_cast_units_eq (by linarith)
  have heven := h.even_of_high (by linarith)
  rw [hw'] at heven
  exact absurd heven (by decide)

/-- A fraction is nearest to one word only. -/
theorem Cell.eq {u : ℚ} {w w' : Nat} (h : Cell u w) (h' : Cell u w') : w = w' := by
  have hlt : ∀ {w w' : Nat}, Cell u w → Cell u w' → ¬ w < w' := by
    intro w w' h h' hlt
    obtain ⟨v, rfl⟩ : ∃ v, w' = v + 1 := ⟨w' - 1, by omega⟩
    have h1 := cast_units_le (Nat.le_of_lt_succ hlt)
    have h2 := cast_units_le (Nat.succ_le_of_lt hlt)
    have hlow := h'.low v rfl
    have hhigh := h.high
    have hwv : w = v := eq_of_cast_units_eq (by linarith)
    have heven := h.even_of_high (by linarith)
    have heven' := h'.even_of_low v rfl (by linarith)
    omega
  have h1 := hlt h h'
  have h2 := hlt h' h
  omega

/-! ### Rounding is right -/

theorem abs_sub_le_iff_of_lt {u p q : ℚ} (h : p < q) : |u - q| ≤ |u - p| ↔ p + q ≤ 2 * u := by
  rw [← sq_le_sq]
  constructor
  · intro hle
    by_contra hlt
    nlinarith
  · intro hle
    nlinarith

theorem abs_sub_le_iff_of_gt {u p q : ℚ} (h : q < p) : |u - q| ≤ |u - p| ↔ 2 * u ≤ q + p := by
  rw [← sq_le_sq]
  constructor
  · intro hle
    by_contra hlt
    nlinarith
  · intro hle
    nlinarith

theorem abs_sub_eq_iff_of_ne {u p q : ℚ} (h : p ≠ q) : |u - p| = |u - q| ↔ p + q = 2 * u := by
  rw [← sq_eq_sq_iff_abs_eq_abs]
  constructor
  · intro heq
    have hmul : (p - q) * (p + q - 2 * u) = 0 := by linarith
    rcases mul_eq_zero.mp hmul with h0 | h0
    · exact absurd (sub_eq_zero.mp h0) h
    · linarith
  · intro heq
    have hu : u = (p + q) / 2 := by linarith
    rw [hu]
    ring

theorem abs_sub_value (u : ℚ) (x : Binary64) :
    |u / one - x.value| = |u - x.signedUnits| / one := by
  rw [value, ← sub_div, abs_div, abs_of_pos cast_one_pos]

/-- Of a fraction that is not negative, the distances to numbers are compared in units. -/
theorem abs_sub_value_le_iff {u : ℚ} {x y : Binary64} :
    |u / one - x.value| ≤ |u / one - y.value| ↔ |u - x.signedUnits| ≤ |u - y.signedUnits| := by
  rw [abs_sub_value, abs_sub_value, div_le_div_iff_of_pos_right cast_one_pos]

theorem abs_sub_value_eq_iff {u : ℚ} {x y : Binary64} :
    |u / one - x.value| = |u / one - y.value| ↔ |u - x.signedUnits| = |u - y.signedUnits| := by
  rw [abs_sub_value, abs_sub_value, div_left_inj' cast_one_pos.ne']

theorem value_eq_iff {x y : Binary64} : x.value = y.value ↔ x.signedUnits = y.signedUnits := by
  rw [value, value, div_left_inj' cast_one_pos.ne', Int.cast_inj]

/-- The number with a word, not negative. -/
def ofWord (w : Nat) (h : w < infinityWord) : Binary64 where
  negative := false
  magnitude := w
  magnitude_lt := Nat.lt_trans h (by decide)

theorem signedUnits_ofWord {w : Nat} (h : w < infinityWord) :
    (ofWord w h).signedUnits = units w := rfl

/-- A number that is not below zero has the units of its word. -/
theorem signedUnits_eq {x : Binary64} (h : x.magnitude = 0 ∨ x.negative = false) :
    x.signedUnits = units x.magnitude := by
  unfold signedUnits
  rcases h with h | h
  · rw [h, units_zero]
    split <;> rfl
  · rw [h]
    rfl

/-- Zero is nearer than any number below it. -/
theorem abs_sub_lt_of_negative {u : ℚ} {y : Binary64} (hu : 0 ≤ u)
    (hy : ¬ (y.magnitude = 0 ∨ y.negative = false)) : |u - units 0| < |u - y.signedUnits| := by
  obtain ⟨hpos, hnegative⟩ := not_or.mp hy
  have hunits : (0 : ℚ) < units y.magnitude :=
    Nat.cast_pos.mpr (units_pos (Nat.pos_of_ne_zero hpos))
  rw [signedUnits, if_pos (by simpa using hnegative), units_zero, Nat.cast_zero, sub_zero,
    Int.cast_neg, Int.cast_natCast, sub_neg_eq_add, abs_of_nonneg hu, abs_of_nonneg (by linarith)]
  linarith

/-- What a fraction that is not negative is rounded to is not below zero. -/
theorem Nearest.sign {u : ℚ} {x : Binary64} (hu : 0 ≤ u) (h : Nearest (u / one) x)
    (hx : x.magnitude < infinityWord) : x.magnitude = 0 ∨ x.negative = false := by
  cases h with
  | infinite _ hinfinite => omega
  | finite _ _ hnear =>
    by_contra hsign
    have hzero := hnear (ofWord 0 (by decide)) (by decide)
    rw [abs_sub_value_le_iff, signedUnits_ofWord, Int.cast_natCast] at hzero
    exact absurd hzero (not_le.mpr (abs_sub_lt_of_negative hu hsign))

/-- What is rounded to a finite number is nearest to its word: the neighbours are further away. -/
theorem Nearest.cell {u : ℚ} {x : Binary64} (hu : 0 ≤ u) (h : Nearest (u / one) x)
    (hx : x.magnitude < infinityWord) : Cell u x.magnitude := by
  have hx' := signedUnits_eq (h.sign hu hx)
  cases h with
  | infinite _ hinfinite => omega
  | finite hrange _ hnear heven =>
    have hother : ∀ v (hv : v < infinityWord), |u - units x.magnitude| ≤ |u - units v| ∧
        (v ≠ x.magnitude → |u - units v| = |u - units x.magnitude| → x.magnitude % 2 = 0) := by
      intro v hv
      have h1 := hnear (ofWord v hv) hv
      have h2 := heven (ofWord v hv) hv
      rw [abs_sub_value_le_iff, hx', signedUnits_ofWord, Int.cast_natCast, Int.cast_natCast] at h1
      rw [abs_sub_value_eq_iff, value_eq_iff.ne, hx', signedUnits_ofWord, Int.cast_natCast,
        Int.cast_natCast, Nat.cast_inj.ne, units_strictMono.injective.ne_iff] at h2
      exact ⟨h1, h2⟩
    -- behind the last finite word the range ends
    have hlast : x.magnitude + 1 = infinityWord →
        2 * u < units x.magnitude + units (x.magnitude + 1) := by
      intro hlast
      rw [hlast, show x.magnitude = infinityWord - 1 by omega, units_infinityWord]
      rw [abs_of_nonneg (div_nonneg hu cast_one_pos.le), div_lt_iff₀ cast_one_pos] at hrange
      linarith
    have hstep : ∀ v, (units v : ℚ) < units (v + 1) := fun v => cast_units_lt (Nat.lt_succ_self v)
    constructor
    · rintro v hv
      rw [← hv]
      have hle := (hother v (by omega)).1
      rw [← hv] at hle
      exact (abs_sub_le_iff_of_lt (hstep v)).mp hle
    · rcases Nat.lt_or_ge (x.magnitude + 1) infinityWord with hnext | hnext
      · exact (abs_sub_le_iff_of_gt (hstep _)).mp (hother _ hnext).1
      · exact (hlast (by omega)).le
    · intro v hv heq
      refine (hother v (by omega)).2 (by omega) ((abs_sub_eq_iff_of_ne ?_).mpr heq)
      rw [← hv]
      exact (hstep v).ne
    · intro heq
      rcases Nat.lt_or_ge (x.magnitude + 1) infinityWord with hnext | hnext
      · refine (hother _ hnext).2 (by omega) ((abs_sub_eq_iff_of_ne (hstep _).ne').mpr ?_)
        rw [add_comm]
        exact heq.symm
      · exact absurd heq (hlast (by omega)).ne

/-- No other word is nearer, and one that is as near stands beside an even word. -/
theorem Cell.abs_sub_le {u : ℚ} {w : Nat} (h : Cell u w) (v : Nat) :
    |u - units w| ≤ |u - units v| ∧ (|u - units v| = |u - units w| → v ≠ w → w % 2 = 0) := by
  rcases Nat.lt_trichotomy v w with hv | hv | hv
  · obtain ⟨before, hbefore⟩ : ∃ before, before + 1 = w := ⟨w - 1, by omega⟩
    have hlow := h.low before hbefore
    have hle := cast_units_le (show v ≤ before by omega)
    refine ⟨(abs_sub_le_iff_of_lt (cast_units_lt hv)).mpr (by linarith), fun heq _ => ?_⟩
    rw [abs_sub_eq_iff_of_ne (cast_units_lt hv).ne] at heq
    exact h.even_of_low before hbefore (by linarith)
  · rw [hv]
    exact ⟨le_rfl, fun _ hne => absurd rfl hne⟩
  · have hhigh := h.high
    have hle := cast_units_le (Nat.succ_le_of_lt hv)
    refine ⟨(abs_sub_le_iff_of_gt (cast_units_lt hv)).mpr (by linarith), fun heq _ => ?_⟩
    rw [abs_sub_eq_iff_of_ne (cast_units_lt hv).ne'] at heq
    exact h.even_of_high (by linarith)

/-- A fraction is rounded to the word that it is nearest to. -/
theorem nearest_of_cell {u : ℚ} {x : Binary64} (hu : 0 ≤ u) (hx : x.magnitude < infinityWord)
    (hsign : x.magnitude = 0 ∨ x.negative = false) (h : Cell u x.magnitude) :
    Nearest (u / one) x := by
  have hx' := signedUnits_eq hsign
  have hnegative : ∀ y : Binary64, ¬ (y.magnitude = 0 ∨ y.negative = false) →
      |u - units x.magnitude| < |u - y.signedUnits| := fun y hy =>
    (h.abs_sub_le 0).1.trans_lt (abs_sub_lt_of_negative hu hy)
  refine .finite ?_ hx (fun y hy => ?_) (fun y hy hne heq => ?_)
  · rw [abs_of_nonneg (div_nonneg hu cast_one_pos.le), div_lt_iff₀ cast_one_pos]
    exact h.lt_rangeEnd hx
  · rw [abs_sub_value_le_iff, hx', Int.cast_natCast]
    by_cases hy' : y.magnitude = 0 ∨ y.negative = false
    · rw [signedUnits_eq hy', Int.cast_natCast]
      exact (h.abs_sub_le _).1
    · exact (hnegative y hy').le
  · rw [abs_sub_value_eq_iff, hx', Int.cast_natCast] at heq
    by_cases hy' : y.magnitude = 0 ∨ y.negative = false
    · rw [signedUnits_eq hy', Int.cast_natCast] at heq
      refine (h.abs_sub_le _).2 heq fun hmagnitude => hne ?_
      rw [value_eq_iff, hx', signedUnits_eq hy', hmagnitude]
    · exact absurd heq (hnegative y hy').ne'

theorem nearest_le (n d : Nat) : nearest n d ≤ infinityWord :=
  Nat.min_le_right _ _

/-- **Rounding is right**: `nearest` gives the word of the number that a fraction is rounded to. -/
theorem nearest_iff {n d : Nat} (hd : 0 < d) {x : Binary64} :
    Nearest ((n : ℚ) / d / one) x ↔
      x.magnitude = nearest n d ∧ (x.magnitude = 0 ∨ x.negative = false) := by
  have hone := cast_one_pos
  have hu : (0 : ℚ) ≤ (n : ℚ) / d := div_nonneg n.cast_nonneg d.cast_nonneg
  have hq : (0 : ℚ) ≤ (n : ℚ) / d / one := div_nonneg hu hone.le
  have hle := nearest_le n d
  constructor
  · intro h
    rcases hle.lt_or_eq with hfinite | hinfinite
    · have hcell := cell_nearest hd hfinite
      rcases Nat.lt_or_ge x.magnitude infinityWord with hx | hx
      · exact ⟨(h.cell hu hx).eq hcell, h.sign hu hx⟩
      · cases h with
        | finite _ hx' => omega
        | infinite hrange =>
          rw [abs_of_nonneg hq, le_div_iff₀ hone] at hrange
          exact absurd hrange (not_le.mpr (hcell.lt_rangeEnd hfinite))
    · have hrange := rangeEnd_le_of_nearest hd hinfinite
      cases h with
      | finite hlt =>
        rw [abs_of_nonneg hq, div_lt_iff₀ hone] at hlt
        exact absurd hlt (not_lt.mpr hrange)
      | infinite _ hx hsign =>
        refine ⟨hx.trans hinfinite.symm, .inr ?_⟩
        rw [Bool.eq_false_iff, ne_eq, hsign]
        exact not_lt.mpr hq
  · rintro ⟨hx, hsign⟩
    rcases hle.lt_or_eq with hfinite | hinfinite
    · exact nearest_of_cell hu (hx ▸ hfinite) hsign (hx ▸ cell_nearest hd hfinite)
    · rw [hinfinite] at hx
      have hne : x.negative = false := hsign.resolve_left (by rw [hx]; decide)
      refine .infinite ?_ hx ?_
      · rw [abs_of_nonneg hq, le_div_iff₀ hone]
        exact rangeEnd_le_of_nearest hd hinfinite
      · rw [hne]
        exact ⟨nofun, fun h => absurd h (not_lt.mpr hq)⟩

end ImageScoring.Binary64
