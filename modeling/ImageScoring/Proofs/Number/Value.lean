import ImageScoring.Bytes
import ImageScoring.Number.Binary64
import Mathlib.Data.Rat.Floor

/-!
# What numbers stand for

A finite binary64 number is a fraction. `Binary64.truncate` cuts it off toward zero, and keeps what
is left within a range (`truncated`).
-/

namespace ImageScoring.Binary64

/-- The fraction that a finite number is. -/
def value (x : Binary64) : ℚ :=
  x.signedUnits / one

/-- The whole part of a fraction: the next whole number on the way to zero. -/
def wholePart (q : ℚ) : Int :=
  if 0 ≤ q then ⌊q⌋ else ⌈q⌉

/-- `Truncated low high x n`: a number comes to that whole number, within the range. -/
inductive Truncated (low high : Int) (x : Binary64) : Int → Prop where
  | nan : x.isNan = true → Truncated low high x 0
  | infinite : x.isInfinite = true → Truncated low high x (if x.negative then low else high)
  | finite : x.isNan = false → x.isInfinite = false →
      Truncated low high x (max low (min high (wholePart x.value)))

theorem one_pos : 0 < one := by
  unfold one
  positivity

theorem wholePart_natCast_div (n d : Nat) : wholePart ((n : ℚ) / d) = (n / d : Nat) := by
  have hq : (0 : ℚ) ≤ n / d := by positivity
  rw [wholePart, if_pos hq]
  exact Rat.floor_natCast_div_natCast n d

theorem wholePart_neg (q : ℚ) : wholePart (-q) = -wholePart q := by
  unfold wholePart
  rcases lt_trichotomy q 0 with hq | rfl | hq
  · rw [if_pos (by linarith), if_neg (by linarith), Int.floor_neg]
  · simp
  · rw [if_neg (by linarith), if_pos (by linarith), Int.ceil_neg]

theorem wholePart_value (x : Binary64) :
    wholePart x.value =
      if x.negative then -((units x.magnitude / one : Nat) : Int)
      else (units x.magnitude / one : Nat) := by
  unfold value signedUnits
  split
  · rw [Int.cast_neg, neg_div, wholePart_neg, Int.cast_natCast, wholePart_natCast_div]
  · rw [Int.cast_natCast, wholePart_natCast_div]

/-- **Numbers are cut off toward zero**, and kept within the range. -/
theorem truncated (low high : Int) (x : Binary64) :
    Truncated low high x (x.truncate low high) := by
  rcases hnan : x.isNan with _ | _
  · rcases hinfinite : x.isInfinite with _ | _
    · have h : Truncated low high x (max low (min high (wholePart x.value))) :=
        .finite hnan hinfinite
      rw [wholePart_value] at h
      unfold truncate
      rw [hnan, hinfinite]
      exact h
    · unfold truncate
      rw [hnan, hinfinite]
      exact .infinite hinfinite
  · unfold truncate
    rw [hnan]
    exact .nan hnan

theorem bits_lt (x : Binary64) : x.bits < 2 ^ 64 := by
  have h := x.magnitude_lt
  unfold bits
  split
  all_goals omega

end ImageScoring.Binary64
