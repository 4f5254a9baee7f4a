import ImageScoring.Filter
import ImageScoring.Proofs.Base64
import ImageScoring.Proofs.Count

/-!
# Names of scripts are read exactly

The argument that names a script is base64 in characters (`Base64.text`), which has no white space
in it, so white space around it can be told apart from it. Behind the base64 stand octets that end
in a zero and whose first zero ends the name (`Terminated`); nothing is asked of the octets between
two zeros. `decode?` finds the name of exactly these arguments (`decode?_exact`).
-/

namespace ImageScoring

namespace Base64

/-- The base64 of a byte string, in characters. -/
def text (octets : Bytes) : List Char :=
  (encode octets).map fun b => Char.ofNat b.toNat

theorem mem_encode {octets : Bytes} {b : UInt8} (h : b ∈ encode octets) :
    b = pad ∨ ∃ v < 64, b = symbol v := by
  fun_induction encode octets with
  | case1 => cases h
  | case2 a =>
    have ha := a.toNat_lt
    simp only [List.mem_cons, List.not_mem_nil, or_false] at h
    obtain rfl | rfl | rfl | rfl := h
    · exact .inr ⟨_, by omega, rfl⟩
    · exact .inr ⟨_, by omega, rfl⟩
    · exact .inl rfl
    · exact .inl rfl
  | case3 a a' =>
    have ha := a.toNat_lt
    have ha' := a'.toNat_lt
    simp only [List.mem_cons, List.not_mem_nil, or_false] at h
    obtain rfl | rfl | rfl | rfl := h
    · exact .inr ⟨_, by omega, rfl⟩
    · exact .inr ⟨_, by omega, rfl⟩
    · exact .inr ⟨_, by omega, rfl⟩
    · exact .inl rfl
  | case4 a a' a'' rest ih =>
    have ha := a.toNat_lt
    have ha' := a'.toNat_lt
    have ha'' := a''.toNat_lt
    simp only [List.mem_cons] at h
    obtain rfl | rfl | rfl | rfl | h := h
    · exact .inr ⟨_, by omega, rfl⟩
    · exact .inr ⟨_, by omega, rfl⟩
    · exact .inr ⟨_, by omega, rfl⟩
    · exact .inr ⟨_, by omega, rfl⟩
    · exact ih h

/-- Base64 is printable ASCII without a blank. -/
theorem toNat_of_mem_encode {octets : Bytes} {b : UInt8} (h : b ∈ encode octets) :
    0x2B ≤ b.toNat ∧ b.toNat < 0x7F := by
  obtain rfl | ⟨v, hv, rfl⟩ := mem_encode h
  · decide
  · rw [toNat_symbol]
    split_ifs <;> omega

theorem toNat_of_mem_text {octets : Bytes} {c : Char} (h : c ∈ text octets) :
    0x2B ≤ c.toNat ∧ c.toNat < 0x7F := by
  obtain ⟨b, hb, rfl⟩ := List.mem_map.mp h
  have hrange := toNat_of_mem_encode hb
  rwa [Utf8.char_toNat_ofNat (.inl (by omega))]

theorem encode_text (octets : Bytes) : Utf8.encode (text octets) = encode octets := by
  have hascii : ∀ c ∈ text octets, c.toNat < 0x80 := fun c hc => by
    have hrange := toNat_of_mem_text hc
    omega
  have hback : ∀ b ∈ encode octets, UInt8.ofNat (Char.ofNat b.toNat).toNat = b := fun b hb => by
    have hrange := toNat_of_mem_encode hb
    rw [Utf8.char_toNat_ofNat (.inl (by omega)), UInt8.ofNat_toNat]
  rw [Utf8.encode_of_ascii hascii, text, List.map_map]
  exact (List.map_congr_left hback).trans (List.map_id _)

theorem text_ne_nil {octets : Bytes} (h : octets ≠ []) : text octets ≠ [] := by
  intro hnil
  have hnone : encode octets = encode [] := List.map_eq_nil_iff.mp hnil
  have hread := decode?_encode octets
  rw [hnone, decode?_encode] at hread
  exact h (Except.ok.inj hread).symm

/-- White space around base64 is taken away, and nothing of it. -/
theorem trim_text {octets : Bytes} {before after : List Char} (hne : octets ≠ [])
    (hb : ∀ c ∈ before, Text.isBlank c = true) (ha : ∀ c ∈ after, Text.isBlank c = true) :
    Text.trim (before ++ text octets ++ after) = text octets := by
  refine Text.trim_append hb (text_ne_nil hne) (fun c hc => ?_) ha
  have hrange := toNat_of_mem_text hc
  simp only [Text.isBlank, Bool.or_eq_false_iff, Bool.and_eq_false_iff, decide_eq_false_iff_not,
    beq_eq_false_iff_ne]
  omega

end Base64

namespace ScriptName

/-- The octets end in a zero, and what stands before their first zero is the name. -/
structure Terminated (octets : Bytes) (name : String) : Prop where
  ends : octets.getLast? = some 0
  front : ∃ rest, octets = Utf8.ofText name ++ 0 :: rest
  zero_notMem : 0 ∉ Utf8.ofText name
  ne_empty : name ≠ ""

/-- The argument is base64 of such octets, white space around it left aside. -/
def Names (argument name : String) : Prop :=
  ∃ octets, Text.trim argument.toList = Base64.text octets ∧ Terminated octets name

variable {octets : Bytes} {argument name : String}

theorem takeWhile_of_zero_notMem {front rest : Bytes} (h : 0 ∉ front) :
    (front ++ 0 :: rest).takeWhile (· != 0) = front := by
  have hall : ∀ b ∈ front, (b != 0) = true := fun b hb => by
    rw [bne_iff_ne]
    exact fun hzero => h (hzero ▸ hb)
  rw [List.takeWhile_append_of_pos hall]
  simp

theorem terminated_iff :
    Terminated octets name ↔ octets.getLast? = some 0 ∧
      octets.takeWhile (· != 0) = Utf8.ofText name ∧ name ≠ "" := by
  constructor
  · rintro ⟨hends, ⟨rest, rfl⟩, hzero, hne⟩
    exact ⟨hends, takeWhile_of_zero_notMem hzero, hne⟩
  · rintro ⟨hends, hfront, hne⟩
    have hsplit := List.takeWhile_append_dropWhile (p := (· != 0)) (l := octets)
    have hzero : 0 ∉ Utf8.ofText name := fun hmem => by
      rw [← hfront] at hmem
      simpa using List.mem_takeWhile_imp hmem
    refine ⟨hends, ?_, hzero, hne⟩
    rw [hfront] at hsplit
    cases hdrop : octets.dropWhile (· != 0) with
    | nil =>
      rw [hdrop, List.append_nil] at hsplit
      rw [← hsplit] at hends
      exact absurd (List.mem_of_getLast? hends) hzero
    | cons b rest =>
      have hb : (b != 0) = false := by
        have := List.head?_dropWhile_not (· != 0) octets
        rw [hdrop] at this
        exact this
      have hb' : b = 0 := by simpa using hb
      rw [hdrop, hb'] at hsplit
      exact ⟨rest, hsplit.symm⟩

theorem ofOctets?_eq_ok_iff : ofOctets? octets = .ok name ↔ Terminated octets name := by
  rw [terminated_iff, ofOctets?]
  by_cases hends : octets.getLast? = some 0
  · rw [if_neg (not_not.mpr hends)]
    rcases hread : Utf8.toText? (octets.takeWhile (· != 0)) with fault | found
    · refine ⟨nofun, ?_⟩
      rintro ⟨-, hfront, -⟩
      rw [Utf8.toText?_eq_ok_iff.mpr hfront] at hread
      cases hread
    · have hfound := Utf8.toText?_eq_ok_iff.mp hread
      dsimp only
      by_cases hempty : found.isEmpty = true
      · rw [if_pos hempty]
        refine ⟨nofun, ?_⟩
        rintro ⟨-, hfront, hne⟩
        rw [Utf8.toText?_eq_ok_iff.mpr hfront] at hread
        obtain rfl := Except.ok.inj hread
        exact absurd (String.isEmpty_iff.mp hempty) hne
      · rw [if_neg hempty]
        constructor
        · intro h
          obtain rfl := Except.ok.inj h
          exact ⟨hends, hfound, fun hnil => hempty (String.isEmpty_iff.mpr hnil)⟩
        · rintro ⟨-, hfront, -⟩
          rw [Utf8.toText?_eq_ok_iff.mpr hfront] at hread
          rw [Except.ok.inj hread]
  · rw [if_pos hends]
    refine ⟨nofun, ?_⟩
    rintro ⟨hends', -⟩
    exact absurd hends' hends

theorem decode?_eq_ok_iff : decode? argument = .ok name ↔ Names argument name := by
  unfold decode? Names
  constructor
  · intro h
    rcases hread : Base64.decode? (Utf8.encode (Text.trim argument.toList)) with fault | octets
    · rw [hread] at h
      cases h
    · rw [hread] at h
      have htext := Base64.decode?_eq_ok_iff.mp hread
      rw [← Base64.encode_text] at htext
      exact ⟨octets, Utf8.encode_injective htext, ofOctets?_eq_ok_iff.mp h⟩
  · rintro ⟨octets, htrim, hterminated⟩
    rw [htrim, Base64.encode_text, Base64.decode?_encode]
    exact ofOctets?_eq_ok_iff.mpr hterminated

theorem terminated_of_name (hne : name ≠ "") (hzero : Char.ofNat 0 ∉ name.toList) :
    Terminated (Utf8.ofText name ++ [0]) name where
  ends := List.getLast?_concat
  front := ⟨[], rfl⟩
  zero_notMem h := hzero ((Utf8.mem_encode_iff (by decide)).mp h)
  ne_empty := hne

/-- **Names of scripts are read exactly.** A name without a zero in it is found in the base64 of it
and a zero, whatever white space stands around that. An argument gives a name exactly if it is,
white space around it left aside, the base64 of octets that end in a zero and start with the name,
which is not empty, and another zero or the same one; nothing more is asked of the octets. Every
other argument is refused, and a filter is not started with it. -/
theorem decode?_exact :
    (∀ (name : String) (before after : List Char), name ≠ "" → Char.ofNat 0 ∉ name.toList →
      (∀ c ∈ before, Text.isBlank c = true) → (∀ c ∈ after, Text.isBlank c = true) →
      decode? (String.ofList (before ++ Base64.text (Utf8.ofText name ++ [0]) ++ after)) =
        .ok name) ∧
    (∀ argument name, decode? argument = .ok name ↔ Names argument name) ∧
    ∀ argument, (¬∃ name, Names argument name) → ∃ fault, decode? argument = .error fault ∧
      ∀ {σ : Type} (programs : Programs σ) config filterName more bundle s,
        Filter.start programs config filterName (argument :: more) bundle s =
          (.error (.scriptName fault.message), s) := by
  refine ⟨fun name before after hne hzero hb ha => ?_, fun _ _ => decode?_eq_ok_iff, ?_⟩
  · rw [decode?_eq_ok_iff]
    refine ⟨_, ?_, terminated_of_name hne hzero⟩
    rw [String.toList_ofList]
    exact Base64.trim_text (by simp) hb ha
  · intro argument hno
    rcases hread : decode? argument with fault | name
    · refine ⟨fault, rfl, fun programs config filterName more bundle s => ?_⟩
      rw [Filter.start, ofArguments?, hread]
    · exact absurd ⟨name, decode?_eq_ok_iff.mp hread⟩ hno

/-- Blanks around the base64 of a name do no harm, and the octets between two zeros are not read. -/
theorem padded_name_found :
    decode? (String.ofList ([' '] ++ Base64.text (Utf8.ofText "score" ++ [0]) ++ [Char.ofNat 10])) =
      .ok "score" ∧
    decode? "YQBiAA==" = .ok "a" := by
  obtain ⟨hround, hiff, -⟩ := decode?_exact
  refine ⟨hround "score" [' '] [Char.ofNat 10] (by decide) (by decide)
    (List.all_eq_true.mp rfl) (List.all_eq_true.mp rfl), ?_⟩
  refine (hiff _ _).mpr ⟨ascii "a" ++ 0 :: ascii "b" ++ [0], by decide, ?_⟩
  exact ⟨rfl, ⟨ascii "b" ++ [0], by decide⟩, by decide, by decide⟩

end ScriptName

end ImageScoring
