import ImageScoring.Proofs.Number.Rounding

/-!
# Rounded arithmetic

Which fractions are rounded to zero and to infinity, and what sums and products of numbers in units
come to. A number that is a binary64 number itself is kept (`Exact`), multiplying by a power of two
and rounding may be interchanged (`mul_twoPow`), and less than half a step added to a number is lost
(`add_small`). Dividing by a power of two rounds a second time (`mul_inverse_twoPow`).
-/

namespace ImageScoring.Binary64

/-! ### Rounding the special values -/

theorem nearest_lt_iff {n d : Nat} (hd : 0 < d) :
    nearest n d < infinityWord ↔ (n : ℚ) / d / one < rangeEnd := by
  have hone := cast_one_pos
  rw [div_lt_iff₀ hone]
  constructor
  · exact fun h => (cell_nearest hd h).lt_rangeEnd h
  · intro h
    refine (nearest_le n d).lt_of_ne fun heq => ?_
    exact absurd (rangeEnd_le_of_nearest hd heq) (not_le.mpr h)

/-- Only nothing has no units. -/
theorem nearest_eq_zero_iff {N : Nat} : nearest N 1 = 0 ↔ N = 0 := by
  constructor
  · intro h
    have hcell := cell_nearest (n := N) Nat.one_pos (by rw [h]; decide)
    have hhigh := hcell.high
    rw [h, show units 0 = 0 from units_zero, show units (0 + 1) = 1 by decide] at hhigh
    have : 2 * N ≤ 1 := by exact_mod_cast (by simpa using hhigh : (2 * N : ℚ) ≤ 1)
    omega
  · rintro rfl
    decide

theorem nearest_infinity_iff {q : ℚ} (hq : 0 ≤ q) :
    Nearest q (infinity false) ↔ rangeEnd ≤ q := by
  constructor
  · intro h
    cases h with
    | finite _ hfinite => exact absurd hfinite (Nat.lt_irrefl _)
    | infinite hrange => rwa [abs_of_nonneg hq] at hrange
  · exact fun h => .infinite (by rwa [abs_of_nonneg hq]) rfl
      ⟨nofun, fun hlt => absurd hlt (not_lt.mpr hq)⟩

/-- What is rounded to zero is half of the least positive number, or less. -/
theorem nearest_zero_iff {q : ℚ} (hq : 0 ≤ q) :
    Nearest q (ofUnits false 0 1) ↔ q ≤ 1 / 2 ^ 1075 := by
  have hone := cast_one_pos
  have hzero : (ofUnits false 0 1).magnitude = 0 := by decide
  have hunits : (units 0 + units (0 + 1) : ℚ) = 1 := by
    rw [units_zero, show units (0 + 1) = 1 by decide]
    norm_num
  have hbound : q ≤ 1 / 2 ^ 1075 ↔ 2 * (q * one) ≤ 1 := by
    rw [show (2 : ℚ) ^ 1075 = 2 * 2 ^ 1074 from pow_succ' 2 1074, ← cast_one,
      le_div_iff₀ (mul_pos two_pos hone)]
    constructor <;> intro h <;> linarith
  have hscaled : q * one / one = q := mul_div_cancel_right₀ q hone.ne'
  rw [hbound, ← hunits]
  constructor
  · intro h
    rw [← hscaled] at h
    have hcell := h.cell (mul_nonneg hq hone.le) (by rw [hzero]; decide)
    rw [hzero] at hcell
    exact hcell.high
  · intro h
    rw [← hscaled]
    refine nearest_of_cell (mul_nonneg hq hone.le) (by rw [hzero]; decide) (.inl hzero) ?_
    rw [hzero]
    exact ⟨nofun, h, nofun, fun _ => rfl⟩

theorem not_nearest_nan {q : ℚ} {negative : Bool} : ¬ Nearest q (nan negative) := by
  have hmagnitude : (nan negative).magnitude = infinityWord + 2 ^ 51 := rfl
  intro h
  cases h with
  | finite _ hfinite => omega
  | infinite _ hinfinite => omega

theorem rangeEnd_pos : 0 < rangeEnd :=
  sub_pos.mpr (pow_lt_pow_right₀ one_lt_two (by decide))

theorem value_neg (x : Binary64) : x.neg.value = -x.value := by
  have hunits : x.neg.signedUnits = -x.signedUnits := by
    unfold signedUnits neg
    cases x.negative <;> simp
  rw [value, value, hunits, Int.cast_neg, neg_div]

/-- A fraction below zero is rounded as the one above zero. -/
theorem Nearest.neg {q : ℚ} {x : Binary64} (h : Nearest q x) : Nearest (-q) x.neg := by
  have hflip : ∀ z : ℚ, |-q - -z| = |q - z| := fun z => by rw [← abs_neg]; congr 1; ring
  have hneg : ∀ y : Binary64, y.value = -y.neg.value := fun y => by rw [value_neg, neg_neg]
  cases h with
  | finite hrange hx hnear heven =>
    refine .finite (by rwa [abs_neg]) hx (fun y hy => ?_) (fun y hy hne heq => ?_)
    · rw [value_neg, hneg y, hflip, hflip]
      exact hnear y.neg hy
    · rw [value_neg, hneg y, hflip, hflip] at heq
      rw [value_neg, hneg y] at hne
      exact heven y.neg hy (fun h => hne (by rw [h])) heq
  | infinite hrange hx hsign =>
    refine .infinite (by rwa [abs_neg]) hx ?_
    have hne : q ≠ 0 := by
      rintro rfl
      rw [abs_zero] at hrange
      exact absurd hrange (not_le.mpr rangeEnd_pos)
    rw [Binary64.neg, Bool.not_eq_true', Bool.eq_false_iff, ne_eq, hsign, neg_lt_zero, not_lt]
    exact ⟨fun h => lt_of_le_of_ne h hne.symm, le_of_lt⟩

/-! ### Words of sums and of shifted numbers -/

/-- A significand of up to 53 bits is found again, whatever less than half a step is added. -/
theorem nearest_word_add {a s δ : Nat} (h : a = 0 ∨ 2 ^ 52 ≤ s) (hs : s ≤ 2 ^ 53)
    (hδ : 2 * δ < 2 ^ a) : nearest (s * 2 ^ a + δ) 1 = min (a * 2 ^ 52 + s) infinityWord := by
  have hcore : ∀ {a s : Nat}, (a = 0 ∨ 2 ^ 52 ≤ s) → s < 2 ^ 53 → 2 * δ < 2 ^ a →
      nearest (s * 2 ^ a + δ) 1 = min (a * 2 ^ 52 + s) infinityWord := by
    intro a s h hs hδ
    have hround : roundHalfEven (s * 2 ^ a + δ) (1 * 2 ^ a) = s := by
      rw [Nat.one_mul]
      have h1 : 2 * (s * 2 ^ a + δ) = 2 * s * 2 ^ a + 2 * δ := by ring
      have h2 : (2 * s + 1) * 2 ^ a = 2 * s * 2 ^ a + 2 ^ a := by ring
      exact roundHalfEven_eq (Nat.two_pow_pos a) (by omega) (by omega)
    have hbinade : Binade (s * 2 ^ a + δ) 1 a := by
      unfold Binade
      rw [Nat.pow_add, Nat.pow_add, Nat.mul_one, Nat.mul_one]
      refine ⟨h.imp id fun h => ?_, ?_⟩
      · have := Nat.mul_le_mul_right (2 ^ a) h
        omega
      · have h1 := Nat.mul_le_mul_right (2 ^ a) (Nat.succ_le_of_lt hs)
        rw [Nat.succ_mul] at h1
        omega
    rw [nearest_eq Nat.one_pos hbinade, hround]
  rcases hs.lt_or_eq with hs | rfl
  · exact hcore h hs hδ
  · have hpow : 2 ^ 53 * 2 ^ a = 2 ^ 52 * 2 ^ (a + 1) := by rw [Nat.pow_succ 2 a]; ring
    have hδ' : 2 * δ < 2 ^ (a + 1) := hδ.trans (Nat.pow_lt_pow_right (by decide) (by omega))
    rw [hpow, hcore (.inr le_rfl) (by decide) hδ',
      show (a + 1) * 2 ^ 52 + 2 ^ 52 = a * 2 ^ 52 + 2 ^ 53 by omega]

theorem nearest_word {a s : Nat} (h : a = 0 ∨ 2 ^ 52 ≤ s) (hs : s ≤ 2 ^ 53) :
    nearest (s * 2 ^ a) 1 = min (a * 2 ^ 52 + s) infinityWord :=
  @nearest_word_add a s 0 h hs (Nat.two_pow_pos a)

/-- What is found to be nearest to a number of units, in the binade of that number. -/
theorem exists_significand (N : Nat) :
    ∃ a s, Binade N 1 a ∧ roundHalfEven N (2 ^ a) = s ∧ (a = 0 ∨ 2 ^ 52 ≤ s) ∧ s ≤ 2 ^ 53 ∧
      nearest N 1 = min (a * 2 ^ 52 + s) infinityWord := by
  have h := exists_binade N Nat.one_pos
  generalize Nat.log2 (N / 1) - 52 = a at h
  have hbounds := significand_bounds Nat.one_pos h
  have hnearest := nearest_eq Nat.one_pos h
  rw [Nat.one_mul] at hbounds hnearest
  exact ⟨a, _, h, rfl, hbounds.1, hbounds.2, hnearest⟩

/-- A number of units below 2⁵³ is its own word. -/
theorem units_nearest_of_binade_zero {N : Nat} (h : Binade N 1 0) :
    nearest N 1 < infinityWord ∧ units (nearest N 1) = N := by
  have hN : N < 2 ^ 53 := by simpa using h.2
  have hlt : 2 ^ 53 < infinityWord := by decide
  have hnearest := nearest_word (a := 0) (.inl rfl) hN.le
  rw [Nat.pow_zero, Nat.mul_one, Nat.zero_mul, Nat.zero_add, Nat.min_eq_left (by omega)] at hnearest
  have hunits := units_word (a := 0) (.inl rfl) hN.le
  rw [Nat.zero_mul, Nat.zero_add, Nat.pow_zero, Nat.mul_one] at hunits
  rw [hnearest]
  exact ⟨by omega, hunits⟩

/-- **Rounding and multiplying by a power of two may be interchanged.** -/
theorem nearest_shift (N k : Nat) :
    (nearest N 1 < infinityWord →
      nearest (units (nearest N 1) * 2 ^ k) 1 = nearest (N * 2 ^ k) 1) ∧
    (nearest N 1 = infinityWord → nearest (N * 2 ^ k) 1 = infinityWord) := by
  obtain ⟨a, s, hbinade, hs, hlow, hhigh, hnearest⟩ := exists_significand N
  rcases Nat.eq_zero_or_pos a with rfl | ha
  · obtain ⟨hfinite, hunits⟩ := units_nearest_of_binade_zero hbinade
    exact ⟨fun _ => by rw [hunits], fun h => by omega⟩
  have hshift : Binade (N * 2 ^ k) 1 (a + k) := by
    obtain ⟨h1, h2⟩ := hbinade
    unfold Binade
    rw [Nat.mul_one] at h1 h2 ⊢
    rw [Nat.mul_one, ← Nat.add_assoc, ← Nat.add_assoc, Nat.pow_add _ _ k, Nat.pow_add _ _ k]
    exact ⟨.inr (Nat.mul_le_mul_right _ (h1.resolve_left (by omega))),
      Nat.mul_lt_mul_of_pos_right h2 (Nat.two_pow_pos k)⟩
  have hright : nearest (N * 2 ^ k) 1 = min ((a + k) * 2 ^ 52 + s) infinityWord := by
    rw [nearest_eq Nat.one_pos hshift, Nat.one_mul, Nat.pow_add 2 a k,
      roundHalfEven_mul_mul _ _ (Nat.two_pow_pos k), hs]
  constructor
  · intro hfinite
    rw [hnearest] at hfinite ⊢
    rw [Nat.min_eq_left (by omega), units_word hlow hhigh, Nat.mul_assoc, ← Nat.pow_add,
      nearest_word (.inr (hlow.resolve_left (by omega))) hhigh, hright]
  · intro hinfinite
    rw [hnearest, min_eq_right_iff] at hinfinite
    rw [hright, min_eq_right_iff]
    exact hinfinite.trans
      (Nat.add_le_add_right (Nat.mul_le_mul_right _ (Nat.le_add_right a k)) s)

/-- **Less than half a step is lost.** -/
theorem nearest_add_small {N δ t : Nat} (hN : 2 ^ (53 + t) ≤ N) (hδ : δ < 2 ^ t)
    (hfinite : nearest N 1 < infinityWord) :
    nearest (units (nearest N 1) + δ) 1 = nearest N 1 := by
  obtain ⟨a, s, hbinade, -, hlow, hhigh, hnearest⟩ := exists_significand N
  have hlt : 53 + t < 53 + a := by
    have h := hbinade.2
    rw [Nat.mul_one] at h
    exact (Nat.pow_lt_pow_iff_right (by decide)).mp (hN.trans_lt h)
  have hstep : 2 * δ < 2 ^ a := by
    have h : 2 ^ (t + 1) ≤ 2 ^ a := Nat.pow_le_pow_right (by decide) (by omega)
    rw [Nat.pow_succ] at h
    omega
  rw [hnearest] at hfinite ⊢
  rw [Nat.min_eq_left (by omega), units_word hlow hhigh, nearest_word_add hlow hhigh hstep,
    Nat.min_eq_left (by omega)]

/-! ### Numbers that are kept -/

/-- A number of units that some finite number has. -/
def Exact (N : Nat) : Prop :=
  nearest N 1 < infinityWord ∧ units (nearest N 1) = N

/-- Up to 53 bits are kept, wherever they stand in the range. -/
theorem exact_of_lt {s t : Nat} (hs : s < 2 ^ 53) (ht : t ≤ 2045) : Exact (s * 2 ^ t) := by
  unfold Exact
  obtain ⟨a, r, hbinade, hr, hlow, hhigh, hnearest⟩ := exists_significand (s * 2 ^ t)
  rcases Nat.eq_zero_or_pos a with rfl | ha
  · exact units_nearest_of_binade_zero hbinade
  obtain ⟨h1, h2⟩ := hbinade
  rw [Nat.mul_one] at h1 h2
  have hat : 52 + a < 53 + t := by
    refine (Nat.pow_lt_pow_iff_right (by decide)).mp
      ((h1.resolve_left (by omega)).trans_lt (b := s * 2 ^ t) ?_)
    rw [Nat.pow_add 2 53 t]
    exact Nat.mul_lt_mul_of_pos_right hs (Nat.two_pow_pos t)
  obtain ⟨k, rfl⟩ : ∃ k, t = k + a := ⟨t - a, by omega⟩
  rw [Nat.pow_add 2 k a, ← Nat.mul_assoc] at h2 hr hnearest ⊢
  rw [roundHalfEven_mul _ (Nat.two_pow_pos a)] at hr
  have hr' : r < 2 ^ 53 := by
    rw [← hr]
    rw [Nat.pow_add 2 53 a] at h2
    exact Nat.lt_of_mul_lt_mul_right h2
  have hfinite : a * 2 ^ 52 + r < infinityWord := by
    have : infinityWord = 2047 * 2 ^ 52 := by decide
    have : a * 2 ^ 52 ≤ 2045 * 2 ^ 52 := Nat.mul_le_mul_right _ (by omega)
    omega
  rw [hnearest, Nat.min_eq_left hfinite.le, units_word hlow hhigh, hr]
  exact ⟨hfinite, rfl⟩

theorem exact_two_pow {t : Nat} (ht : t < 2098) : Exact (2 ^ t) := by
  have hlt : 2 ^ (t - 2045) < 2 ^ 53 := Nat.pow_lt_pow_right (by decide) (by omega)
  have h := exact_of_lt hlt (Nat.min_le_right t 2045)
  rwa [← Nat.pow_add, show t - 2045 + min t 2045 = t by omega] at h

theorem exact_zero : Exact 0 :=
  ⟨by decide, by decide⟩

/-- One is this power of two, in units. -/
def unitExponent : Nat := 1074

theorem one_eq : one = 2 ^ unitExponent := by
  rw [one, unitExponent]

theorem unitExponent_eq : unitExponent = 1074 := rfl

/-! ### Sums and products -/

theorem ofUnits_congr {n d n' d' : Nat} (negative : Bool) (h : nearest n d = nearest n' d') :
    ofUnits negative n d = ofUnits negative n' d' := by
  simp only [ofUnits, h]

theorem isNan_ofUnits (negative : Bool) (n d : Nat) : (ofUnits negative n d).isNan = false := by
  rw [isNan, decide_eq_false_iff_not]
  exact Nat.not_lt.mpr (nearest_le n d)

theorem isInfinite_ofUnits_of_lt {negative : Bool} {n d : Nat} (h : nearest n d < infinityWord) :
    (ofUnits negative n d).isInfinite = false := by
  rw [isInfinite, beq_eq_false_iff_ne]
  exact Nat.ne_of_lt h

/-- What is out of range is infinite. -/
theorem ofUnits_eq_infinity {negative : Bool} {n d : Nat} (h : nearest n d = infinityWord) :
    ofUnits negative n d = infinity negative := by
  simp only [ofUnits, infinity, h]

theorem signedUnits_ofUnits (n d : Nat) : (ofUnits false n d).signedUnits = units (nearest n d) :=
  rfl

/-- The product with a number that is kept is rounded once more. -/
theorem mul_exact {N P : Nat} (hN : nearest N 1 < infinityWord) (hP : Exact P) :
    (ofUnits false N 1).mul (ofUnits false P 1) = ofUnits false (units (nearest N 1) * P) one := by
  unfold mul
  rw [isNan_ofUnits, isNan_ofUnits, isInfinite_ofUnits_of_lt hN, isInfinite_ofUnits_of_lt hP.1]
  dsimp only [ofUnits, bne_self_eq_false]
  rw [hP.2]
  rfl

/-- An infinity stays one when it is multiplied by a number that is kept. -/
theorem infinity_mul {P : Nat} (hP : Exact P) (hpos : 0 < P) :
    (infinity false).mul (ofUnits false P 1) = infinity false := by
  have hzero : (ofUnits false P 1).isZero = false := by
    rw [isZero, beq_eq_false_iff_ne]
    intro h
    have hunits := hP.2
    rw [show nearest P 1 = 0 from h, units_zero] at hunits
    omega
  unfold mul
  rw [show (infinity false).isNan = false from rfl, isNan_ofUnits,
    show (infinity false).isInfinite = true from rfl, hzero]
  rfl

theorem mul_infinity {N : Nat} (hN : N ≠ 0) :
    (ofUnits false N 1).mul (infinity false) = infinity false := by
  have hzero : (ofUnits false N 1).isZero = false := by
    rw [isZero, beq_eq_false_iff_ne]
    exact nearest_eq_zero_iff.ne.mpr hN
  unfold mul
  rw [isNan_ofUnits, show (infinity false).isNan = false from rfl,
    show (infinity false).isInfinite = true from rfl, hzero,
    show (infinity false).isZero = false from rfl]
  cases (ofUnits false N 1).isInfinite <;> rfl

/-- **Multiplying by a power of two** is rounding the product. -/
theorem mul_twoPow (N : Nat) {k : Nat} (hk : k < 1024) :
    (ofUnits false N 1).mul (ofUnits false (2 ^ (unitExponent + k)) 1) =
      ofUnits false (N * 2 ^ k) 1 := by
  have hP : Exact (2 ^ (unitExponent + k)) := exact_two_pow (by rw [unitExponent_eq]; omega)
  obtain ⟨hshift, hinfinite⟩ := nearest_shift N k
  rcases (nearest_le N 1).lt_or_eq with h | h
  · have hcancel := nearest_mul_mul (units (nearest N 1) * 2 ^ k) 1 one_pos
    rw [Nat.one_mul] at hcancel
    rw [mul_exact h hP, Nat.pow_add, ← one_eq, Nat.mul_comm one, ← Nat.mul_assoc]
    exact ofUnits_congr false (hcancel.trans (hshift h))
  · rw [ofUnits_eq_infinity h, ofUnits_eq_infinity (hinfinite h),
      infinity_mul hP (Nat.two_pow_pos _)]

/-- **Multiplying by the inverse of a power of two** is rounding the quotient of the rounded
number. -/
theorem mul_inverse_twoPow {N e : Nat} (he : e ≤ unitExponent) (hN : nearest N 1 < infinityWord) :
    (ofUnits false N 1).mul (ofUnits false (2 ^ (unitExponent - e)) 1) =
      ofUnits false (units (nearest N 1)) (2 ^ e) := by
  have hP : Exact (2 ^ (unitExponent - e)) := exact_two_pow (by rw [unitExponent_eq]; omega)
  have hcancel := nearest_mul_mul (units (nearest N 1)) (2 ^ e) (Nat.two_pow_pos (unitExponent - e))
  rw [← Nat.pow_add, Nat.add_sub_of_le he, ← one_eq] at hcancel
  rw [mul_exact hN hP]
  exact ofUnits_congr false hcancel

theorem add_exact {N M : Nat} (hN : nearest N 1 < infinityWord) (hM : Exact M) :
    (ofUnits false N 1).add (ofUnits false M 1) = ofUnits false (units (nearest N 1) + M) 1 := by
  unfold add
  rw [isNan_ofUnits, isNan_ofUnits, isInfinite_ofUnits_of_lt hN, isInfinite_ofUnits_of_lt hM.1,
    signedUnits_ofUnits, signedUnits_ofUnits, hM.2]
  dsimp only
  generalize units (nearest N 1) = u
  by_cases hzero : (u : Int) + M = 0
  · obtain ⟨rfl, rfl⟩ : u = 0 ∧ M = 0 := by omega
    rfl
  · have hnegative : decide ((u : Int) + M < 0) = false := decide_eq_false (by omega)
    rw [if_neg hzero, hnegative]
    rfl

theorem infinity_add {M : Nat} (hM : nearest M 1 < infinityWord) :
    (infinity false).add (ofUnits false M 1) = infinity false := by
  unfold add
  rw [show (infinity false).isNan = false from rfl, isNan_ofUnits,
    show (infinity false).isInfinite = true from rfl, isInfinite_ofUnits_of_lt hM]
  rfl

/-- Nothing that is added changes nothing. -/
theorem add_zero (N : Nat) :
    (ofUnits false N 1).add (ofUnits false 0 1) = ofUnits false N 1 := by
  rcases (nearest_le N 1).lt_or_eq with h | h
  · have hsame := (nearest_shift N 0).1 h
    rw [Nat.pow_zero, Nat.mul_one, Nat.mul_one] at hsame
    rw [add_exact h exact_zero, Nat.add_zero]
    exact ofUnits_congr false hsame
  · rw [ofUnits_eq_infinity h, infinity_add exact_zero.1]

/-- **What is less than half a step is lost** when it is added. -/
theorem add_small {N δ t : Nat} (hN : 2 ^ (53 + t) ≤ N) (hδ : δ < 2 ^ t) (hexact : Exact δ) :
    (ofUnits false N 1).add (ofUnits false δ 1) = ofUnits false N 1 := by
  rcases (nearest_le N 1).lt_or_eq with h | h
  · rw [add_exact h hexact]
    exact ofUnits_congr false (nearest_add_small hN hδ h)
  · rw [ofUnits_eq_infinity h, infinity_add hexact.1]

end ImageScoring.Binary64
