import ImageScoring.Number.Prefix
import ImageScoring.Proofs.Number.Arithmetic

/-!
# Hexadecimal digits, one after the other

`Prefix.hexWhole` and `Prefix.hexFraction` add up digits in binary64 arithmetic. Every step is
exact as long as the number has no more than 53 bits. The digit that brings it beyond is the last
one that counts (`keep`): the number is rounded there, and every digit behind it is less than half a
step and is lost. Behind the 268th place no digit counts at all, for there the scale has vanished.

So a mantissa is its kept digits, rounded once (`hexFraction_hexWhole`).
-/

namespace ImageScoring.Prefix

open Binary64

/-- The number before which the digits stop counting, with digits added to it as long as it has no
more than 53 bits, and the digits that are left over then. -/
def keep (n : Nat) : List Nat → Nat × List Nat
  | [] => (n, [])
  | d :: digits => if n < 2 ^ 53 then keep (16 * n + d) digits else (n, d :: digits)

/-- How many places behind the point count: the scale of the next one has vanished. -/
def placeLimit : Nat := 268

theorem le_of_keep {n k : Nat} {digits dropped : List Nat} (h : keep n digits = (k, dropped))
    (hne : dropped ≠ []) : 2 ^ 53 ≤ k := by
  induction digits generalizing n with
  | nil =>
    obtain ⟨-, rfl⟩ := Prod.mk.inj h
    exact absurd rfl hne
  | cons d digits ih =>
    rw [keep] at h
    split at h
    · exact ih h
    · next hn =>
      obtain ⟨rfl, -⟩ := Prod.mk.inj h
      exact Nat.le_of_not_lt hn

/-- With no digit left over, all of them have been added. -/
theorem keep_fst_of_nil {n : Nat} {digits : List Nat} (h : (keep n digits).2 = []) :
    (keep n digits).1 = digits.foldl (fun n d => 16 * n + d) n := by
  induction digits generalizing n with
  | nil => rfl
  | cons d digits ih =>
    rw [keep] at h ⊢
    split at h
    · next hn =>
      rw [if_pos hn]
      exact ih h
    · exact absurd h (List.cons_ne_nil _ _)

/-- Digits behind others are kept if none of the others is left over. -/
theorem keep_append {n k : Nat} {digits dropped : List Nat} (h : keep n digits = (k, dropped))
    (more : List Nat) :
    keep n (digits ++ more) = if dropped = [] then keep k more else (k, dropped ++ more) := by
  induction digits generalizing n with
  | nil =>
    obtain ⟨rfl, rfl⟩ := Prod.mk.inj h
    rfl
  | cons d digits ih =>
    rw [List.cons_append, keep]
    rw [keep] at h
    split at h
    · next hn => rw [if_pos hn, ih h]
    · next hn =>
      obtain ⟨rfl, rfl⟩ := Prod.mk.inj h
      rw [if_neg hn, if_neg (List.cons_ne_nil _ _)]
      rfl

/-! ### The constants -/

theorem ofNat_eq (n : Nat) : ofNat n = ofUnits false (n * 2 ^ unitExponent) 1 := by
  rw [ofNat, ofFraction, one_eq]

theorem ofNat_two_pow (k : Nat) : ofNat (2 ^ k) = ofUnits false (2 ^ (unitExponent + k)) 1 := by
  rw [ofNat_eq, Nat.pow_add, Nat.mul_comm]

/-- The inverse of a power of two is one, too. -/
theorem ofFraction_two_pow {k : Nat} (hk : k ≤ unitExponent) :
    ofFraction false 1 (2 ^ k) = ofUnits false (2 ^ (unitExponent - k)) 1 := by
  have h := nearest_mul_mul (2 ^ (unitExponent - k)) 1 (Nat.two_pow_pos k)
  rw [← Nat.pow_add, Nat.sub_add_cancel hk, ← one_eq] at h
  rw [ofFraction, Nat.one_mul]
  rw [Nat.one_mul] at h
  exact ofUnits_congr false h

/-- A digit, in units, is kept. -/
theorem exact_digit {d t : Nat} (hd : d < 16) (ht : t ≤ unitExponent) : Exact (d * 2 ^ t) :=
  exact_of_lt (hd.trans (by decide)) (ht.trans (by decide))

/-! ### Digits before the point -/

/-- One more digit before the point. -/
def addWhole (value : Binary64) (d : Nat) : Binary64 :=
  (value.mul sixteen).add (.ofNat d)

theorem mul_sixteen (N : Nat) : (ofUnits false N 1).mul sixteen = ofUnits false (N * 2 ^ 4) 1 := by
  rw [sixteen, show 16 = 2 ^ 4 from rfl, ofNat_two_pow, mul_twoPow N (by decide)]

/-- A digit is added to a number that has no more than 53 bits. -/
theorem addWhole_of_lt {n d : Nat} (hn : n < 2 ^ 53) (hd : d < 16) :
    addWhole (ofUnits false (n * 2 ^ unitExponent) 1) d =
      ofUnits false ((16 * n + d) * 2 ^ unitExponent) 1 := by
  have hexact : Exact (n * 2 ^ (unitExponent + 4)) := exact_of_lt hn (by decide)
  have hsum : n * 2 ^ (unitExponent + 4) + d * 2 ^ unitExponent =
      (16 * n + d) * 2 ^ unitExponent := by
    rw [Nat.pow_add]
    ring
  rw [addWhole, mul_sixteen, Nat.mul_assoc, ← Nat.pow_add, ofNat_eq,
    add_exact hexact.1 (exact_digit hd le_rfl), hexact.2, hsum]

/-- Behind more than 53 bits a digit is less than half a step. -/
theorem add_digit_of_le {n t u d : Nat} (hn : 2 ^ 53 ≤ n) (ht : u + 4 ≤ t) (hd : d < 16)
    (hu : u ≤ unitExponent) :
    (ofUnits false (n * 2 ^ t) 1).add (ofUnits false (d * 2 ^ u) 1) =
      ofUnits false (n * 2 ^ t) 1 := by
  have hN : 2 ^ (53 + t) ≤ n * 2 ^ t := by
    rw [Nat.pow_add]
    exact Nat.mul_le_mul_right _ hn
  have hδ : d * 2 ^ u < 2 ^ t := by
    have h1 : d * 2 ^ u < 2 ^ 4 * 2 ^ u := Nat.mul_lt_mul_of_pos_right hd (Nat.two_pow_pos u)
    rw [← Nat.pow_add, Nat.add_comm] at h1
    exact h1.trans_le (Nat.pow_le_pow_right (by decide) ht)
  exact add_small hN hδ (exact_digit hd hu)

theorem addWhole_of_le {n t d : Nat} (hn : 2 ^ 53 ≤ n) (ht : unitExponent ≤ t) (hd : d < 16) :
    addWhole (ofUnits false (n * 2 ^ t) 1) d = ofUnits false (n * 2 ^ (t + 4)) 1 := by
  rw [addWhole, mul_sixteen, Nat.mul_assoc, ← Nat.pow_add, ofNat_eq,
    add_digit_of_le hn (Nat.add_le_add_right ht 4) hd le_rfl]

theorem foldl_addWhole_of_le {n t : Nat} {digits : List Nat} (hn : 2 ^ 53 ≤ n)
    (ht : unitExponent ≤ t) (hdigits : ∀ d ∈ digits, d < 16) :
    digits.foldl addWhole (ofUnits false (n * 2 ^ t) 1) =
      ofUnits false (n * 2 ^ (t + 4 * digits.length)) 1 := by
  induction digits generalizing t with
  | nil => rfl
  | cons d digits ih =>
    rw [List.forall_mem_cons] at hdigits
    rw [List.foldl_cons, addWhole_of_le hn ht hdigits.1, ih (by omega) hdigits.2, List.length_cons]
    congr 3
    omega

/-- **Digits before the point**: the kept ones are added up, those left over only make room. -/
theorem foldl_addWhole {n : Nat} {digits : List Nat} (hdigits : ∀ d ∈ digits, d < 16) :
    digits.foldl addWhole (ofUnits false (n * 2 ^ unitExponent) 1) =
      ofUnits false ((keep n digits).1 * 2 ^ (unitExponent + 4 * (keep n digits).2.length)) 1 := by
  induction digits generalizing n with
  | nil => rfl
  | cons d digits ih =>
    rw [keep]
    split
    · next hn =>
      rw [List.forall_mem_cons] at hdigits
      rw [List.foldl_cons, addWhole_of_lt hn hdigits.1, ih hdigits.2]
    · next hn => exact foldl_addWhole_of_le (Nat.le_of_not_lt hn) le_rfl hdigits

/-! ### Digits behind the point -/

/-- The scale of the next digit, with that many places left that count. -/
def scaleAt : Nat → Binary64
  | 0 => ofUnits false 0 1
  | p + 1 => ofUnits false (2 ^ (4 * p + 2)) 1

/-- One more digit behind the point, and the scale of the one behind it. -/
def addFraction (state : Binary64 × Binary64) (d : Nat) : Binary64 × Binary64 :=
  (state.1.add ((Binary64.ofNat d).mul state.2), state.2.mul sixteenth)

theorem unitExponent_eq_places : unitExponent = 4 * placeLimit + 2 := rfl

theorem sixteenth_eq : sixteenth = ofUnits false (2 ^ (unitExponent - 4)) 1 := by
  rw [sixteenth, show 16 = 2 ^ 4 from rfl, ofFraction_two_pow (by decide)]

theorem sixteenth_eq_scaleAt : sixteenth = scaleAt placeLimit := by
  rw [sixteenth_eq, show placeLimit = 267 + 1 from rfl, scaleAt,
    show unitExponent - 4 = 4 * 267 + 2 from rfl]

theorem exact_scale {p : Nat} (hp : p + 1 ≤ placeLimit) : Exact (2 ^ (4 * p + 2)) := by
  have hlimit : placeLimit = 268 := rfl
  exact exact_two_pow (by omega)

theorem scaleAt_mul_sixteenth {p : Nat} (hp : p ≤ placeLimit) :
    (scaleAt p).mul sixteenth = scaleAt (p - 1) := by
  cases p with
  | zero =>
    rw [scaleAt, sixteenth_eq, mul_inverse_twoPow (by decide) exact_zero.1]
    exact ofUnits_congr false (by decide)
  | succ p =>
    have hexact := exact_scale hp
    rw [scaleAt, sixteenth_eq, mul_inverse_twoPow (by decide) hexact.1, hexact.2]
    cases p with
    | zero => exact ofUnits_congr false (by decide)
    | succ p =>
      have h := nearest_mul_mul (2 ^ (4 * p + 2)) 1 (c := 2 ^ 4) (by decide)
      rw [← Nat.pow_add, Nat.one_mul] at h
      exact ofUnits_congr false h

theorem ofNat_mul_scaleAt {p d : Nat} (hp : p + 1 ≤ placeLimit) (hd : d < 16) :
    (Binary64.ofNat d).mul (scaleAt (p + 1)) = ofUnits false (d * 2 ^ (4 * p + 2)) 1 := by
  have hdigit := exact_digit hd (le_refl unitExponent)
  have h := nearest_mul_mul (d * 2 ^ (4 * p + 2)) 1 Binary64.one_pos
  rw [Nat.one_mul, Nat.mul_right_comm, one_eq] at h
  rw [ofNat_eq, scaleAt, mul_exact hdigit.1 (exact_scale hp), hdigit.2, one_eq]
  exact ofUnits_congr false h

theorem ofNat_mul_scaleAt_zero {d : Nat} (hd : d < 16) :
    (Binary64.ofNat d).mul (scaleAt 0) = ofUnits false 0 1 := by
  have h := nearest_mul_mul 0 1 Binary64.one_pos
  rw [Nat.one_mul, Nat.zero_mul] at h
  rw [ofNat_eq, scaleAt, mul_exact (exact_digit hd le_rfl).1 exact_zero, Nat.mul_zero]
  exact ofUnits_congr false h

/-- A digit is added to a number that has no more than 53 bits. -/
theorem addFraction_of_lt {n p d : Nat} (hn : n < 2 ^ 53) (hp : p + 1 ≤ placeLimit) (hd : d < 16) :
    addFraction (ofUnits false (n * 2 ^ (4 * (p + 1) + 2)) 1, scaleAt (p + 1)) d =
      (ofUnits false ((16 * n + d) * 2 ^ (4 * p + 2)) 1, scaleAt p) := by
  have hlimit : placeLimit = 268 := rfl
  have hunit := unitExponent_eq_places
  have hexact : Exact (n * 2 ^ (4 * (p + 1) + 2)) := exact_of_lt hn (by omega)
  have hsum : n * 2 ^ (4 * (p + 1) + 2) + d * 2 ^ (4 * p + 2) =
      (16 * n + d) * 2 ^ (4 * p + 2) := by
    rw [show 4 * (p + 1) + 2 = 4 * p + 2 + 4 by omega, Nat.pow_add]
    ring
  rw [addFraction, scaleAt_mul_sixteenth hp, ofNat_mul_scaleAt hp hd,
    add_exact hexact.1 (exact_digit hd (by omega)), hexact.2, hsum, Nat.add_sub_cancel]

/-- Behind more than 53 bits a digit is lost, and so is every digit whose scale has vanished. -/
theorem addFraction_of_le {n t p d : Nat} (hn : 2 ^ 53 ≤ n) (ht : 4 * p + 2 ≤ t)
    (hp : p ≤ placeLimit) (hd : d < 16) :
    addFraction (ofUnits false (n * 2 ^ t) 1, scaleAt p) d =
      (ofUnits false (n * 2 ^ t) 1, scaleAt (p - 1)) := by
  have hlimit : placeLimit = 268 := rfl
  have hunit := unitExponent_eq_places
  rw [addFraction, scaleAt_mul_sixteenth hp]
  cases p with
  | zero => rw [ofNat_mul_scaleAt_zero hd, Binary64.add_zero]
  | succ p => rw [ofNat_mul_scaleAt hp hd, add_digit_of_le hn (by omega) hd (by omega)]

theorem foldl_addFraction_of_le {n t p : Nat} {digits : List Nat} (hn : 2 ^ 53 ≤ n)
    (ht : 4 * p + 2 ≤ t) (hp : p ≤ placeLimit) (hdigits : ∀ d ∈ digits, d < 16) :
    (digits.foldl addFraction (ofUnits false (n * 2 ^ t) 1, scaleAt p)).1 =
      ofUnits false (n * 2 ^ t) 1 := by
  induction digits generalizing p with
  | nil => rfl
  | cons d digits ih =>
    rw [List.forall_mem_cons] at hdigits
    rw [List.foldl_cons, addFraction_of_le hn ht hp hdigits.1,
      ih (by omega) (by omega) hdigits.2]

theorem foldl_addFraction_zero (N : Nat) {digits : List Nat} (hdigits : ∀ d ∈ digits, d < 16) :
    (digits.foldl addFraction (ofUnits false N 1, scaleAt 0)).1 = ofUnits false N 1 := by
  induction digits with
  | nil => rfl
  | cons d digits ih =>
    rw [List.forall_mem_cons] at hdigits
    rw [List.foldl_cons, addFraction, scaleAt_mul_sixteenth (Nat.zero_le _),
      ofNat_mul_scaleAt_zero hdigits.1, Binary64.add_zero]
    exact ih hdigits.2

/-- **Digits behind the point**: the kept ones are added up, those left over and those behind the
last place that counts are lost. -/
theorem foldl_addFraction {n p : Nat} {digits rest : List Nat} (hp : p ≤ placeLimit)
    (hlength : digits.length ≤ p) (hrest : rest ≠ [] → digits.length = p)
    (hdigits : ∀ d ∈ digits ++ rest, d < 16) :
    ((digits ++ rest).foldl addFraction (ofUnits false (n * 2 ^ (4 * p + 2)) 1, scaleAt p)).1 =
      ofUnits false ((keep n digits).1 *
        2 ^ (4 * (p - digits.length + (keep n digits).2.length) + 2)) 1 := by
  induction digits generalizing n p with
  | nil =>
    by_cases hnil : rest = []
    · rw [hnil]
      rfl
    · obtain rfl : 0 = p := hrest hnil
      exact foldl_addFraction_zero _ hdigits
  | cons d digits ih =>
    rw [keep]
    split
    · next hn =>
      obtain ⟨p, rfl⟩ : ∃ q, p = q + 1 := ⟨p - 1, by rw [List.length_cons] at hlength; omega⟩
      rw [List.cons_append, List.forall_mem_cons] at hdigits
      rw [List.length_cons] at hlength hrest
      rw [List.cons_append, List.foldl_cons, addFraction_of_lt hn hp hdigits.1,
        ih (by omega) (by omega) (fun h => by have := hrest h; omega) hdigits.2, List.length_cons,
        Nat.add_sub_add_right]
    · next hn =>
      rw [foldl_addFraction_of_le (Nat.le_of_not_lt hn) le_rfl hp hdigits,
        Nat.sub_add_cancel hlength]

theorem hexFraction_eq (whole : Binary64) (digits : List Nat) :
    hexFraction whole digits = (digits.foldl addFraction (whole, scaleAt placeLimit)).1 := by
  rw [← sixteenth_eq_scaleAt]
  rfl

/-! ### Mantissas -/

/-- The digits that can count: all before the point, and those behind it up to the last place. -/
def counted (whole fraction : List Nat) : List Nat :=
  whole ++ fraction.take placeLimit

/-- The kept digits of a mantissa, in units. -/
def keptUnits (whole fraction : List Nat) : Nat :=
  (keep 0 (counted whole fraction)).1 *
    2 ^ (4 * (placeLimit - (fraction.take placeLimit).length +
      (keep 0 (counted whole fraction)).2.length) + 2)

/-- **A mantissa is its kept digits, rounded once.** -/
theorem hexFraction_hexWhole {whole fraction : List Nat} (hwhole : ∀ d ∈ whole, d < 16)
    (hfraction : ∀ d ∈ fraction, d < 16) :
    hexFraction (hexWhole whole) fraction = ofUnits false (keptUnits whole fraction) 1 := by
  have hunit := unitExponent_eq_places
  have hsplit := List.take_append_drop placeLimit fraction
  have hleft : hexWhole whole = whole.foldl addWhole (ofUnits false (0 * 2 ^ unitExponent) 1) := by
    rw [← ofNat_eq]
    rfl
  rw [hleft, foldl_addWhole hwhole, hexFraction_eq, keptUnits, counted,
    keep_append (Prod.eta (keep 0 whole)).symm]
  split
  · next hnil =>
    rw [hnil, List.length_nil, Nat.mul_zero, Nat.add_zero, hunit]
    have hfraction' : ∀ d ∈ fraction.take placeLimit ++ fraction.drop placeLimit, d < 16 := by
      rwa [hsplit]
    have h := foldl_addFraction (n := (keep 0 whole).1) le_rfl
      (List.length_take_le placeLimit fraction) (fun h => ?_) hfraction'
    · rwa [hsplit] at h
    · rw [List.length_take]
      have := List.length_pos_iff.mpr h
      rw [List.length_drop] at this
      omega
  · next hne =>
    have hle := le_of_keep (Prod.eta (keep 0 whole)).symm hne
    have hlength := List.length_take_le placeLimit fraction
    rw [foldl_addFraction_of_le hle (by omega) le_rfl hfraction, List.length_append]
    congr 3
    omega

end ImageScoring.Prefix
