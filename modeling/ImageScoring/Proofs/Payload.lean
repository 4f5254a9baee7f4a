import ImageScoring.Payload
import Mathlib.Data.Nat.Basic

/-!
# Packing pixels is exact

Sizes have 64 bits, and a product of them may not. Two products are checked before pixels are
packed, and the next ones are not. `checked_eq` says that the checks refuse exactly the images whose
buffer no size can tell; then the products that are not checked lose nothing (`product_of_lt`), and
every octet of the packed image is the one it should be (`getElem?_dropFourth`).
-/

namespace ImageScoring.Payload

/-! ### Products of sizes -/

theorem product_of_lt {a b : Nat} (h : a * b < sizeLimit) : product a b = a * b :=
  Nat.mod_eq_of_lt h

theorem isSome_product?_iff {a b : Nat} : (product? a b).isSome = true ↔ a * b < sizeLimit := by
  unfold product?
  split
  · next h => exact ⟨fun _ => h, fun _ => rfl⟩
  · next h => exact ⟨fun hs => absurd hs (by simp), fun hlt => absurd hlt h⟩

/-- The two checks come to one: whether there is a size for the octets of the buffer. -/
theorem checked_eq (width height : Nat) :
    ((product? width height).filter fun area => (product? area 4).isSome) =
      if 4 * width * height < sizeLimit then some (width * height) else none := by
  have hoctets : width * height * 4 = 4 * width * height := by
    rw [Nat.mul_comm, Nat.mul_assoc]
  by_cases hfits : 4 * width * height < sizeLimit
  · have harea : width * height < sizeLimit := by omega
    have hfour : (product? (width * height) 4).isSome = true :=
      isSome_product?_iff.mpr (hoctets ▸ hfits)
    rw [product?, if_pos harea, if_pos hfits, Option.filter, if_pos hfour]
  · rw [if_neg hfits, product?]
    split
    · have hfour : ¬(product? (width * height) 4).isSome = true := fun hs =>
        hfits (hoctets ▸ isSome_product?_iff.mp hs)
      rw [Option.filter, if_neg hfour]
    · rfl

/-! ### The octets of the pixels -/

/-- Less than four octets hold no pixel. -/
theorem length_lt_of_no_pixel {rgbx : Bytes}
    (h : ∀ r g b x rest, rgbx = r :: g :: b :: x :: rest → False) : rgbx.length < 4 := by
  by_contra hlong
  match rgbx, hlong with
  | r :: g :: b :: x :: rest, _ => exact h r g b x rest rfl
  | [], hlong | [_], hlong | [_, _], hlong | [_, _, _], hlong => simp at hlong

theorem length_dropFourth {count : Nat} {rgbx : Bytes} (h : rgbx.length = 4 * count) :
    (dropFourth rgbx).length = 3 * count := by
  fun_induction dropFourth rgbx generalizing count with
  | case1 r g b x rest ih =>
    simp only [List.length_cons] at h ⊢
    have hrest : rest.length = 4 * (count - 1) := by omega
    rw [ih hrest]
    omega
  | case2 rgbx hshort =>
    have hlt := length_lt_of_no_pixel hshort
    rw [List.length_nil]
    omega

/-- The first three octets of a pixel are kept, and where they go. -/
theorem getElem?_dropFourth {rgbx : Bytes} {i j : Nat} (hi : 4 * i + 3 < rgbx.length)
    (hj : j < 3) : (dropFourth rgbx)[3 * i + j]? = rgbx[4 * i + j]? := by
  fun_induction dropFourth rgbx generalizing i with
  | case1 r g b x rest ih =>
    cases i with
    | zero =>
      obtain rfl | rfl | rfl : j = 0 ∨ j = 1 ∨ j = 2 := by omega
      all_goals rfl
    | succ i =>
      simp only [List.length_cons] at hi
      have hthree : 3 * (i + 1) + j = 3 * i + j + 3 := by omega
      have hfour : 4 * (i + 1) + j = 4 * i + j + 4 := by omega
      rw [hthree, hfour]
      exact ih (by omega)
  | case2 rgbx hshort =>
    have hlt := length_lt_of_no_pixel hshort
    omega

/-! ### Packing -/

/-- What packing comes to, in exact numbers. -/
theorem pack_eq (width height : Nat) (rgbx : Bytes) :
    pack width height rgbx =
      if 4 * width * height < sizeLimit then
        if rgbx.length = 4 * width * height then .ok (dropFourth rgbx)
        else .error (.sizeMismatch width height (4 * width * height) rgbx.length)
      else .error (.overflow width height) := by
  have hoctets : width * height * 4 = 4 * width * height := by
    rw [Nat.mul_comm, Nat.mul_assoc]
  unfold pack
  rw [checked_eq]
  by_cases hfits : 4 * width * height < sizeLimit
  · have hexpected : product (width * height) 4 = 4 * width * height := by
      rw [product_of_lt (by omega), hoctets]
    rw [if_pos hfits, if_pos hfits]
    dsimp only
    rw [hexpected]
  · rw [if_neg hfits, if_neg hfits]

/-- **Packing is exact for all sizes.** An image is too large exactly if four octets for each pixel
are 2 ^ 64 or more. If not, the buffer is refused exactly if it does not hold that many octets, and
that number is told. If it does, there are three octets for each pixel of the packed image, a number
that is not cut off either, and they are the first three that the buffer holds for that pixel. -/
theorem pack_exact (width height : Nat) (rgbx : Bytes) :
    (pack width height rgbx = .error (.overflow width height) ↔ 2 ^ 64 ≤ 4 * width * height) ∧
    (4 * width * height < 2 ^ 64 →
      (pack width height rgbx =
          .error (.sizeMismatch width height (4 * width * height) rgbx.length) ↔
        rgbx.length ≠ 4 * width * height) ∧
      (rgbx.length = 4 * width * height → ∃ rgb, pack width height rgbx = .ok rgb ∧
        rgb.length = 3 * width * height ∧ product (width * height) 3 = rgb.length ∧
        ∀ i < width * height, ∀ j < 3, rgb[3 * i + j]? = rgbx[4 * i + j]?)) := by
  have hlimit : sizeLimit = 2 ^ 64 := rfl
  have hfour : 4 * width * height = 4 * (width * height) := Nat.mul_assoc ..
  have hthree : 3 * width * height = 3 * (width * height) := Nat.mul_assoc ..
  rw [pack_eq, hlimit]
  by_cases hfits : 4 * width * height < 2 ^ 64
  · rw [if_pos hfits]
    refine ⟨⟨fun h => ?_, fun hlarge => absurd hfits (Nat.not_lt.mpr hlarge)⟩, fun _ => ⟨?_, ?_⟩⟩
    · split at h <;> cases h
    · by_cases hlength : rgbx.length = 4 * width * height
      · rw [if_pos hlength]
        exact ⟨(nomatch ·), fun hne => absurd hlength hne⟩
      · rw [if_neg hlength]
        exact ⟨fun _ => hlength, fun _ => rfl⟩
    · intro hlength
      have hpacked := length_dropFourth (hlength.trans hfour)
      refine ⟨dropFourth rgbx, if_pos hlength, hpacked.trans hthree.symm, ?_, ?_⟩
      · rw [hpacked, product_of_lt (by omega), Nat.mul_comm]
      · intro i hi j hj
        exact getElem?_dropFourth (by omega) hj
  · rw [if_neg hfits]
    exact ⟨⟨fun _ => Nat.not_lt.mp hfits, fun _ => rfl⟩, fun hlt => absurd hlt hfits⟩

end ImageScoring.Payload
