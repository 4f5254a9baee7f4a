import ImageScoring.Text.Utf8
import Mathlib.Data.Nat.Basic

/-!
# Reading UTF-8 undoes its writing

`Octets n bs` lists the byte strings that stand for one character, by the ranges of their octets,
and says nothing of how they are written or read. `encodeChar` writes such a string for every
character and no other string stands for it, and `first?` reads exactly these strings. So `decode?`
accepts a byte string exactly if it is the encoding of some characters (`decode?_eq_ok_iff`).
-/

namespace ImageScoring.Utf8

/-! ### The octets of a character -/

/-- `Octets n bs`: the octets `bs` stand for the character of number `n`. -/
inductive Octets : Nat → Bytes → Prop where
  | one {a : UInt8} : a.toNat < 0x80 → Octets a.toNat [a]
  | two {a b : UInt8} : 0xC2 ≤ a.toNat → a.toNat ≤ 0xDF → isTail b = true →
      Octets (a.toNat % 0x20 * 0x40 + tailBits b) [a, b]
  | three {a b c : UInt8} : 0xE0 ≤ a.toNat → a.toNat ≤ 0xEF → (a.toNat = 0xE0 → 0xA0 ≤ b.toNat) →
      (a.toNat = 0xED → b.toNat ≤ 0x9F) → isTail b = true → isTail c = true →
      Octets ((a.toNat % 0x10 * 0x40 + tailBits b) * 0x40 + tailBits c) [a, b, c]
  | four {a b c d : UInt8} : 0xF0 ≤ a.toNat → a.toNat ≤ 0xF4 → (a.toNat = 0xF0 → 0x90 ≤ b.toNat) →
      (a.toNat = 0xF4 → b.toNat ≤ 0x8F) → isTail b = true → isTail c = true → isTail d = true →
      Octets (((a.toNat % 8 * 0x40 + tailBits b) * 0x40 + tailBits c) * 0x40 + tailBits d)
        [a, b, c, d]

theorem isTail_iff {b : UInt8} : isTail b = true ↔ 0x80 ≤ b.toNat ∧ b.toNat ≤ 0xBF := by
  simp only [isTail, UInt8.le_iff_toNat_le, Bool.and_eq_true, decide_eq_true_eq]
  rfl

theorem toNat_ofNat_of_lt {n : Nat} (h : n < 256) : (UInt8.ofNat n).toNat = n := by
  rw [UInt8.toNat_ofNat']
  omega

theorem char_toNat_ofNat {n : Nat} (h : n.isValidChar) : (Char.ofNat n).toNat = n := by
  rw [Char.ofNat, dif_pos h]
  rfl

theorem Octets.isValidChar {n : Nat} {bs : Bytes} (h : Octets n bs) : n.isValidChar := by
  unfold Nat.isValidChar
  cases h with
  | one ha => omega
  | two ha ha' hb => unfold tailBits; omega
  | three ha ha' h0 hd hb hc =>
    rw [isTail_iff] at hb hc
    unfold tailBits; omega
  | four ha ha' h0 hd hb hc hd' =>
    rw [isTail_iff] at hb hc hd'
    unfold tailBits; omega

/-- The encoding of a character stands for it. -/
theorem octets_encodeChar (c : Char) : Octets c.toNat (encodeChar c) := by
  -- only the number of the character matters, and that it is none of the surrogates
  have hc : c.toNat.isValidChar := c.valid
  unfold Nat.isValidChar at hc
  unfold encodeChar
  generalize c.toNat = n at hc
  dsimp only
  split
  · next h1 =>
    have ha := toNat_ofNat_of_lt (n := n) (by omega)
    have h := Octets.one (a := UInt8.ofNat n) (by omega)
    rwa [ha] at h
  split
  · next h1 h2 =>
    have ha := toNat_ofNat_of_lt (n := 0xC0 + n / 0x40) (by omega)
    have hb := toNat_ofNat_of_lt (n := 0x80 + n % 0x40) (by omega)
    have h := Octets.two (a := UInt8.ofNat (0xC0 + n / 0x40)) (b := UInt8.ofNat (0x80 + n % 0x40))
      (by omega) (by omega) (isTail_iff.mpr (by omega))
    rw [tailBits, ha, hb] at h
    rwa [show (0xC0 + n / 0x40) % 0x20 * 0x40 + (0x80 + n % 0x40) % 0x40 = n by omega] at h
  split
  · next h1 h2 h3 =>
    have ha := toNat_ofNat_of_lt (n := 0xE0 + n / 0x1000) (by omega)
    have hb := toNat_ofNat_of_lt (n := 0x80 + n / 0x40 % 0x40) (by omega)
    have hd := toNat_ofNat_of_lt (n := 0x80 + n % 0x40) (by omega)
    have h := Octets.three (a := UInt8.ofNat (0xE0 + n / 0x1000))
      (b := UInt8.ofNat (0x80 + n / 0x40 % 0x40)) (c := UInt8.ofNat (0x80 + n % 0x40))
      (by omega) (by omega) (by omega) (by omega) (isTail_iff.mpr (by omega))
      (isTail_iff.mpr (by omega))
    rw [tailBits, tailBits, ha, hb, hd] at h
    rwa [show ((0xE0 + n / 0x1000) % 0x10 * 0x40 + (0x80 + n / 0x40 % 0x40) % 0x40) * 0x40 +
      (0x80 + n % 0x40) % 0x40 = n by omega] at h
  · next h1 h2 h3 =>
    have ha := toNat_ofNat_of_lt (n := 0xF0 + n / 0x40000) (by omega)
    have hb := toNat_ofNat_of_lt (n := 0x80 + n / 0x1000 % 0x40) (by omega)
    have hd := toNat_ofNat_of_lt (n := 0x80 + n / 0x40 % 0x40) (by omega)
    have he := toNat_ofNat_of_lt (n := 0x80 + n % 0x40) (by omega)
    have h := Octets.four (a := UInt8.ofNat (0xF0 + n / 0x40000))
      (b := UInt8.ofNat (0x80 + n / 0x1000 % 0x40)) (c := UInt8.ofNat (0x80 + n / 0x40 % 0x40))
      (d := UInt8.ofNat (0x80 + n % 0x40)) (by omega) (by omega) (by omega) (by omega)
      (isTail_iff.mpr (by omega)) (isTail_iff.mpr (by omega)) (isTail_iff.mpr (by omega))
    rw [tailBits, tailBits, tailBits, ha, hb, hd, he] at h
    rwa [show (((0xF0 + n / 0x40000) % 8 * 0x40 + (0x80 + n / 0x1000 % 0x40) % 0x40) * 0x40 +
      (0x80 + n / 0x40 % 0x40) % 0x40) * 0x40 + (0x80 + n % 0x40) % 0x40 = n by omega] at h

theorem ofNat_toNat_of {a : UInt8} {n : Nat} (h : n = a.toNat) : UInt8.ofNat n = a := by
  rw [h, UInt8.ofNat_toNat]

/-- Only one encoding stands for a character. -/
theorem Octets.eq_encodeChar {n : Nat} {bs : Bytes} (h : Octets n bs) :
    bs = encodeChar (Char.ofNat n) := by
  have hn := char_toNat_ofNat h.isValidChar
  unfold encodeChar
  rw [hn]
  cases h with
  | one ha => rw [if_pos ha, UInt8.ofNat_toNat]
  | @two a b ha ha' hb =>
    rw [isTail_iff] at hb
    unfold tailBits
    rw [if_neg (by omega), if_pos (by omega), ofNat_toNat_of (a := a) (by omega),
      ofNat_toNat_of (a := b) (by omega)]
  | @three a b c ha ha' h0 hd hb hc =>
    rw [isTail_iff] at hb hc
    unfold tailBits
    rw [if_neg (by omega), if_neg (by omega), if_pos (by omega),
      ofNat_toNat_of (a := a) (by omega), ofNat_toNat_of (a := b) (by omega),
      ofNat_toNat_of (a := c) (by omega)]
  | @four a b c d ha ha' h0 hd hb hc hd' =>
    rw [isTail_iff] at hb hc hd'
    unfold tailBits
    rw [if_neg (by omega), if_neg (by omega), if_neg (by omega),
      ofNat_toNat_of (a := a) (by omega), ofNat_toNat_of (a := b) (by omega),
      ofNat_toNat_of (a := c) (by omega), ofNat_toNat_of (a := d) (by omega)]

/-! ### The reader's step -/

theorem lead?_eq (a : UInt8) :
    lead? a =
      if 0xC2 ≤ a.toNat ∧ a.toNat ≤ 0xDF then some (2, 0x80, 0xBF)
      else if a.toNat = 0xE0 then some (3, 0xA0, 0xBF)
      else if a.toNat = 0xED then some (3, 0x80, 0x9F)
      else if 0xE1 ≤ a.toNat ∧ a.toNat ≤ 0xEF then some (3, 0x80, 0xBF)
      else if a.toNat = 0xF0 then some (4, 0x90, 0xBF)
      else if 0xF1 ≤ a.toNat ∧ a.toNat ≤ 0xF3 then some (4, 0x80, 0xBF)
      else if a.toNat = 0xF4 then some (4, 0x80, 0x8F)
      else none := by
  simp only [lead?, UInt8.le_iff_toNat_le, ← UInt8.toNat_inj, Bool.and_eq_true, decide_eq_true_eq,
    beq_iff_eq]
  rfl

/-- The range of the second octet of a character, by its first octet and its width. -/
theorem lead?_eq_some_iff {a : UInt8} {width : Nat} {low high : UInt8} :
    lead? a = some (width, low, high) ↔
      (width = 2 ∧ 0xC2 ≤ a.toNat ∧ a.toNat ≤ 0xDF ∧ low = 0x80 ∧ high = 0xBF) ∨
      (width = 3 ∧ 0xE0 ≤ a.toNat ∧ a.toNat ≤ 0xEF ∧
        low = (if a.toNat = 0xE0 then 0xA0 else 0x80) ∧
        high = (if a.toNat = 0xED then 0x9F else 0xBF)) ∨
      (width = 4 ∧ 0xF0 ≤ a.toNat ∧ a.toNat ≤ 0xF4 ∧
        low = (if a.toNat = 0xF0 then 0x90 else 0x80) ∧
        high = (if a.toNat = 0xF4 then 0x8F else 0xBF)) := by
  rw [lead?_eq]
  grind

theorem lt_0x80_iff {a : UInt8} : a < 0x80 ↔ a.toNat < 0x80 :=
  UInt8.lt_iff_toNat_lt

/-- A second octet in its range: a tail, and beyond the bound that some first octets move. -/
theorem within_iff {p q : Prop} [Decidable p] [Decidable q] {low high b : UInt8}
    (hl : 0x80 ≤ low.toNat) (hh : high.toNat ≤ 0xBF) :
    ((if p then low else 0x80) ≤ b && b ≤ (if q then high else 0xBF)) = true ↔
      isTail b = true ∧ (p → low.toNat ≤ b.toNat) ∧ (q → b.toNat ≤ high.toNat) := by
  rw [isTail_iff, Bool.and_eq_true, decide_eq_true_eq, decide_eq_true_eq, UInt8.le_iff_toNat_le,
    UInt8.le_iff_toNat_le]
  have h80 : (0x80 : UInt8).toNat = 0x80 := rfl
  have hBF : (0xBF : UInt8).toNat = 0xBF := rfl
  by_cases hp : p <;> by_cases hq : q <;> simp only [hp, hq, if_true, if_false, h80, hBF] <;>
    simp <;> omega

/-- A character that stands at the front is read, whatever follows it. -/
theorem Octets.first?_append {n : Nat} {bs : Bytes} (h : Octets n bs) (rest : Bytes) :
    first? (bs ++ rest) = some (.char (Char.ofNat n) bs.length) := by
  cases h with
  | @one a ha =>
    have h1 : a < 0x80 := lt_0x80_iff.mpr ha
    simp only [List.singleton_append, first?, if_pos h1, List.length_singleton]
  | @two a b ha ha' hb =>
    have h1 : ¬ a < 0x80 := by rw [lt_0x80_iff]; omega
    have h2 : lead? a = some (2, 0x80, 0xBF) :=
      lead?_eq_some_iff.mpr (.inl ⟨rfl, ha, ha', rfl, rfl⟩)
    have h3 : (0x80 ≤ b && b ≤ 0xBF) = true := hb
    simp [first?, h1, h2, h3]
  | @three a b c ha ha' h0 hd hb hc =>
    have h1 : ¬ a < 0x80 := by rw [lt_0x80_iff]; omega
    have h2 := lead?_eq_some_iff.mpr (.inr (.inl ⟨rfl, ha, ha', rfl, rfl⟩))
    have hlow : 0x80 ≤ (0xA0 : UInt8).toNat := by decide
    have hhigh : (0x9F : UInt8).toNat ≤ 0xBF := by decide
    have h3 := (within_iff hlow hhigh).mpr ⟨hb, h0, hd⟩
    simp [first?, h1, h2, h3, hc]
  | @four a b c d ha ha' h0 hd hb hc hd' =>
    have h1 : ¬ a < 0x80 := by rw [lt_0x80_iff]; omega
    have h2 := lead?_eq_some_iff.mpr (.inr (.inr ⟨rfl, ha, ha', rfl, rfl⟩))
    have hlow : 0x80 ≤ (0x90 : UInt8).toNat := by decide
    have hhigh : (0x8F : UInt8).toNat ≤ 0xBF := by decide
    have h3 := (within_iff hlow hhigh).mpr ⟨hb, h0, hd⟩
    simp [first?, h1, h2, h3, hc, hd']

/-- What is read as a character stands for it. -/
theorem octets_of_first? {bs : Bytes} {c : Char} {width : Nat}
    (h : first? bs = some (.char c width)) :
    ∃ n pre rest, Octets n pre ∧ bs = pre ++ rest ∧ c = Char.ofNat n ∧ width = pre.length := by
  obtain - | ⟨a, rest⟩ := bs
  · simp [first?] at h
  by_cases h1 : a < 0x80
  · simp only [first?, if_pos h1, Option.some.injEq, First.char.injEq] at h
    exact ⟨_, [a], rest, .one (lt_0x80_iff.mp h1), rfl, h.1.symm, h.2.symm⟩
  simp only [first?, if_neg h1] at h
  cases hl : lead? a with
  | none => simp [hl] at h
  | some range =>
    obtain ⟨wide, low, high⟩ := range
    obtain - | ⟨b, rest⟩ := rest
    · simp [hl] at h
    cases hb : (decide (low ≤ b) && decide (b ≤ high)) with
    | false => simp [hl, hb] at h
    | true =>
      rcases lead?_eq_some_iff.mp hl with ⟨rfl, ha, ha', rfl, rfl⟩ | ⟨rfl, ha, ha', rfl, rfl⟩ |
        ⟨rfl, ha, ha', rfl, rfl⟩
      · simp [hl, hb] at h
        exact ⟨_, [a, b], rest, .two ha ha' hb, rfl, h.1.symm, h.2.symm⟩
      · obtain ⟨hb', h0, hd⟩ := (within_iff (by decide) (by decide)).mp hb
        obtain - | ⟨c', rest⟩ := rest
        · simp [hl, hb] at h
        cases hc : isTail c' with
        | false => simp [hl, hb, hc] at h
        | true =>
          simp [hl, hb, hc] at h
          exact ⟨_, [a, b, c'], rest, .three ha ha' h0 hd hb' hc, rfl, h.1.symm, h.2.symm⟩
      · obtain ⟨hb', h0, hd⟩ := (within_iff (by decide) (by decide)).mp hb
        obtain - | ⟨c', rest⟩ := rest
        · simp [hl, hb] at h
        cases hc : isTail c' with
        | false => simp [hl, hb, hc] at h
        | true =>
          obtain - | ⟨d', rest⟩ := rest
          · simp [hl, hb, hc] at h
          cases hd' : isTail d' with
          | false => simp [hl, hb, hc, hd'] at h
          | true =>
            simp [hl, hb, hc, hd'] at h
            exact ⟨_, [a, b, c', d'], rest, .four ha ha' h0 hd hb' hc hd', rfl, h.1.symm, h.2.symm⟩

/-- **Reading one character is undoing its encoding.** -/
theorem first?_eq_char_iff {bs : Bytes} {c : Char} {width : Nat} :
    first? bs = some (.char c width) ↔
      ∃ rest, bs = encodeChar c ++ rest ∧ width = (encodeChar c).length := by
  constructor
  · intro h
    obtain ⟨n, pre, rest, hn, rfl, rfl, rfl⟩ := octets_of_first? h
    rw [← hn.eq_encodeChar]
    exact ⟨rest, rfl, rfl⟩
  · rintro ⟨rest, rfl, rfl⟩
    rw [(octets_encodeChar c).first?_append rest, Char.ofNat_toNat]

/-! ### Whole texts -/

theorem encodeChar_ne_nil (c : Char) : encodeChar c ≠ [] := by
  unfold encodeChar
  dsimp only
  split_ifs <;> simp

@[simp] theorem encode_nil : encode [] = [] := rfl

@[simp] theorem encode_cons (c : Char) (cs : List Char) :
    encode (c :: cs) = encodeChar c ++ encode cs :=
  List.flatMap_cons

@[simp] theorem encode_append (cs ds : List Char) : encode (cs ++ ds) = encode cs ++ encode ds :=
  List.flatMap_append

/-- An ASCII character is one octet. -/
theorem encodeChar_of_lt {c : Char} (h : c.toNat < 0x80) :
    encodeChar c = [UInt8.ofNat c.toNat] := by
  unfold encodeChar
  rw [if_pos h]

theorem encode_of_ascii {cs : List Char} (h : ∀ c ∈ cs, c.toNat < 0x80) :
    encode cs = cs.map fun c => UInt8.ofNat c.toNat := by
  induction cs with
  | nil => rfl
  | cons c cs ih =>
    rw [encode_cons, encodeChar_of_lt (h c (by simp)), ih fun d hd => h d (by simp [hd])]
    rfl

/-- Every other character has no ASCII octet. -/
theorem le_of_mem_encodeChar {c : Char} (h : 0x80 ≤ c.toNat) :
    ∀ b ∈ encodeChar c, 0x80 ≤ b.toNat := by
  have hoctets := octets_encodeChar c
  generalize c.toNat = n at h hoctets
  generalize encodeChar c = bs at hoctets
  cases hoctets with
  | one ha => omega
  | two ha ha' hb =>
    rw [isTail_iff] at hb
    simp only [List.mem_cons, List.not_mem_nil, or_false]
    rintro b (rfl | rfl) <;> omega
  | three ha ha' h0 hd hb hc =>
    rw [isTail_iff] at hb hc
    simp only [List.mem_cons, List.not_mem_nil, or_false]
    rintro b (rfl | rfl | rfl) <;> omega
  | four ha ha' h0 hd hb hc hd' =>
    rw [isTail_iff] at hb hc hd'
    simp only [List.mem_cons, List.not_mem_nil, or_false]
    rintro b (rfl | rfl | rfl | rfl) <;> omega

/-- The ASCII octets of a text are its ASCII characters. -/
theorem mem_encode_iff {b : UInt8} (hb : b.toNat < 0x80) {cs : List Char} :
    b ∈ encode cs ↔ Char.ofNat b.toNat ∈ cs := by
  have hchar : (Char.ofNat b.toNat).toNat = b.toNat := char_toNat_ofNat (.inl (by omega))
  rw [encode, List.mem_flatMap]
  constructor
  · rintro ⟨c, hc, hmem⟩
    by_cases hlow : c.toNat < 0x80
    · rw [encodeChar_of_lt hlow, List.mem_singleton] at hmem
      rw [hmem, toNat_ofNat_of_lt (by omega), Char.ofNat_toNat]
      exact hc
    · have := le_of_mem_encodeChar (Nat.le_of_not_lt hlow) b hmem
      omega
  · intro hc
    refine ⟨_, hc, ?_⟩
    rw [encodeChar_of_lt (by omega), hchar, UInt8.ofNat_toNat]
    exact List.mem_singleton_self b

/-- ASCII octets at the front of an encoding are characters of their own. -/
theorem exists_of_prefix_encode {bs : Bytes} {cs : List Char} (h : ∀ b ∈ bs, b.toNat < 0x80)
    (hp : bs <+: encode cs) :
    ∃ front rest, cs = front ++ rest ∧ encode front = bs ∧ ∀ c ∈ front, c.toNat < 0x80 := by
  induction bs generalizing cs with
  | nil => exact ⟨[], cs, rfl, rfl, by simp⟩
  | cons b bs ih =>
    obtain - | ⟨c, cs⟩ := cs
    · exact absurd (List.prefix_nil.mp hp) (List.cons_ne_nil b bs)
    have hb := h b List.mem_cons_self
    have hc : c.toNat < 0x80 := by
      obtain ⟨d, ds, hd⟩ := List.exists_cons_of_ne_nil (encodeChar_ne_nil c)
      rw [encode_cons, hd, List.cons_append, List.cons_prefix_cons] at hp
      by_contra hc
      have := le_of_mem_encodeChar (Nat.le_of_not_lt hc) d (by rw [hd]; exact List.mem_cons_self)
      rw [← hp.1] at this
      omega
    rw [encode_cons, encodeChar_of_lt hc, List.singleton_append, List.cons_prefix_cons] at hp
    obtain ⟨rfl, hp⟩ := hp
    obtain ⟨front, rest, rfl, rfl, hfront⟩ := ih (fun d hd => h d (List.mem_cons_of_mem _ hd)) hp
    refine ⟨c :: front, rest, rfl, by rw [encode_cons, encodeChar_of_lt hc]; rfl, ?_⟩
    exact List.forall_mem_cons.mpr ⟨hc, hfront⟩

/-- Octets that are passed over do not matter. -/
theorem decodeFrom?_skip (index : Nat) (acc : List Char) (skipped rest : Bytes) :
    decodeFrom? index skipped.length acc (skipped ++ rest) =
      decodeFrom? (index + skipped.length) 0 acc rest := by
  induction skipped generalizing index with
  | nil => rfl
  | cons b skipped ih =>
    rw [List.length_cons, List.cons_append, decodeFrom?, ih]
    congr 1
    omega

/-- One character is read, and reading goes on behind it. -/
theorem decodeFrom?_encodeChar (index : Nat) (acc : List Char) (c : Char) (rest : Bytes) :
    decodeFrom? index 0 acc (encodeChar c ++ rest) =
      decodeFrom? (index + (encodeChar c).length) 0 (c :: acc) rest := by
  have hf : first? (encodeChar c ++ rest) = some (.char c (encodeChar c).length) :=
    first?_eq_char_iff.mpr ⟨rest, rfl, rfl⟩
  obtain ⟨b, tail, hb⟩ := List.exists_cons_of_ne_nil (encodeChar_ne_nil c)
  rw [hb, List.cons_append] at hf ⊢
  rw [decodeFrom?, hf]
  dsimp only
  rw [List.length_cons, Nat.add_sub_cancel, decodeFrom?_skip]
  congr 1
  omega

theorem decodeFrom?_encode (index : Nat) (acc cs : List Char) :
    decodeFrom? index 0 acc (encode cs) = .ok (acc.reverse ++ cs) := by
  induction cs generalizing index acc with
  | nil => simp [decodeFrom?]
  | cons c cs ih =>
    rw [encode_cons, decodeFrom?_encodeChar, ih, List.reverse_cons, List.append_assoc]
    rfl

theorem encode_of_decodeFrom? {bs : Bytes} {index : Nat} {acc cs : List Char}
    (h : decodeFrom? index 0 acc bs = .ok cs) : ∃ ds, cs = acc.reverse ++ ds ∧ bs = encode ds := by
  induction hn : bs.length using Nat.strong_induction_on generalizing bs index acc with
  | _ n ih =>
    obtain - | ⟨b, rest⟩ := bs
    · rw [decodeFrom?] at h
      exact ⟨[], by simpa using (Except.ok.inj h).symm, rfl⟩
    cases hf : first? (b :: rest) with
    | none => simp [decodeFrom?, hf] at h
    | some front =>
      cases front with
      | invalid width => simp [decodeFrom?, hf] at h
      | incomplete => simp [decodeFrom?, hf] at h
      | char c width =>
        obtain ⟨tail, hb, -⟩ := first?_eq_char_iff.mp hf
        have hlt : tail.length < n := by
          rw [← hn, hb, List.length_append]
          have := List.length_pos_iff.mpr (encodeChar_ne_nil c)
          omega
        rw [hb, decodeFrom?_encodeChar] at h
        obtain ⟨ds, hcs, rfl⟩ := ih tail.length hlt h rfl
        refine ⟨c :: ds, ?_, by rw [hb, encode_cons]⟩
        rw [hcs, List.reverse_cons, List.append_assoc]
        rfl

/-- **Reading UTF-8 is undoing its writing**: a byte string is read as some characters exactly if it
is their encoding. -/
theorem decode?_eq_ok_iff {bs : Bytes} {cs : List Char} : decode? bs = .ok cs ↔ bs = encode cs := by
  constructor
  · intro h
    obtain ⟨ds, hcs, hbs⟩ := encode_of_decodeFrom? h
    rw [hbs, hcs]
    rfl
  · rintro rfl
    exact decodeFrom?_encode 0 [] cs

theorem encode_injective : Function.Injective encode := by
  intro cs ds h
  have hread : decode? (encode ds) = .ok cs := decode?_eq_ok_iff.mpr h.symm
  rw [decode?_eq_ok_iff.mpr rfl] at hread
  exact (Except.ok.inj hread).symm

/-- A byte string is read as a text exactly if it is its octets. -/
theorem toText?_eq_ok_iff {bs : Bytes} {text : String} :
    toText? bs = .ok text ↔ bs = ofText text := by
  unfold toText? ofText
  rw [← decode?_eq_ok_iff]
  rcases decode? bs with fault | cs
  · simp [Except.map]
  · simp only [Except.map, Except.ok.injEq]
    exact ⟨fun h => by rw [← h, String.toList_ofList], fun h => by rw [h, String.ofList_toList]⟩

/-! ### Reading what is no UTF-8 -/

def isAscii (b : UInt8) : Bool :=
  b.toNat < 0x80

theorem decodeLossyFrom_eq (skip : Nat) (acc : List Char) (bs : Bytes) :
    decodeLossyFrom skip acc bs = acc.reverse ++ decodeLossyFrom skip [] bs := by
  induction bs generalizing skip acc with
  | nil => simp [decodeLossyFrom]
  | cons b rest ih =>
    cases skip with
    | succ skip => rw [decodeLossyFrom, decodeLossyFrom, ih]
    | zero =>
      rw [decodeLossyFrom, decodeLossyFrom]
      split
      · next c width _ => rw [ih, ih _ [c]]; simp
      · rw [ih, ih _ [replacement]]; simp
      · simp

theorem decodeLossy_cons_of_isAscii {b : UInt8} (hb : b.toNat < 0x80) (rest : Bytes) :
    decodeLossy (b :: rest) = Char.ofNat b.toNat :: decodeLossy rest := by
  have hfirst : first? (b :: rest) = some (.char (Char.ofNat b.toNat) 1) := by
    rw [first?, if_pos (lt_0x80_iff.mpr hb)]
  rw [decodeLossy, decodeLossyFrom, hfirst]
  exact decodeLossyFrom_eq 0 [Char.ofNat b.toNat] rest

/-- An octet that is not ASCII is read as part of a character that is not, right or wrong. -/
theorem exists_cons_of_not_isAscii {b : UInt8} (hb : 0x80 ≤ b.toNat) (rest : Bytes) :
    ∃ c cs, decodeLossy (b :: rest) = c :: cs ∧ 0x80 ≤ c.toNat := by
  have hreplacement : 0x80 ≤ replacement.toNat := by decide
  rw [decodeLossy, decodeLossyFrom]
  split
  · next c width hfirst =>
    obtain ⟨tail, heq, -⟩ := first?_eq_char_iff.mp hfirst
    refine ⟨c, _, decodeLossyFrom_eq _ [c] rest, ?_⟩
    by_contra hc
    rw [encodeChar_of_lt (Nat.lt_of_not_le hc)] at heq
    have hbc : b.toNat = c.toNat := by
      rw [(List.cons.inj heq).1, toNat_ofNat_of_lt (by omega)]
    omega
  · exact ⟨replacement, _, decodeLossyFrom_eq _ [replacement] rest, hreplacement⟩
  · exact ⟨replacement, [], rfl, hreplacement⟩

/-- The ASCII octets at the front are read as they are, whatever follows them. -/
theorem takeWhile_isAscii_encode_decodeLossy (bs : Bytes) :
    (encode (decodeLossy bs)).takeWhile isAscii = bs.takeWhile isAscii := by
  induction bs with
  | nil => rfl
  | cons b rest ih =>
    by_cases hb : b.toNat < 0x80
    · have hchar : (Char.ofNat b.toNat).toNat = b.toNat := char_toNat_ofNat (.inl (by omega))
      have hascii : isAscii b = true := decide_eq_true hb
      rw [decodeLossy_cons_of_isAscii hb, encode_cons, encodeChar_of_lt (by omega), hchar,
        UInt8.ofNat_toNat, List.singleton_append, List.takeWhile_cons_of_pos hascii,
        List.takeWhile_cons_of_pos hascii, ih]
    · obtain ⟨c, cs, heq, hc⟩ := exists_cons_of_not_isAscii (Nat.le_of_not_lt hb) rest
      obtain ⟨d, ds, hd⟩ := List.exists_cons_of_ne_nil (encodeChar_ne_nil c)
      have hle := le_of_mem_encodeChar hc d (by rw [hd]; exact List.mem_cons_self)
      have hascii : ∀ e : UInt8, 0x80 ≤ e.toNat → ¬ isAscii e = true := fun e he => by
        rw [isAscii, decide_eq_true_eq]
        omega
      rw [heq, encode_cons, hd, List.cons_append, List.takeWhile_cons_of_neg (hascii d hle),
        List.takeWhile_cons_of_neg (hascii b (Nat.le_of_not_lt hb))]

end ImageScoring.Utf8
