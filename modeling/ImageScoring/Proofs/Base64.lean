import ImageScoring.Proofs.Utf8
import ImageScoring.Text.Base64
import Mathlib.Data.List.Basic

/-!
# Reading base64 undoes its writing

Three octets and the four values that their symbols have are the same 24 bits; `Whole` puts such
groups one behind the other. All groups but the last are read together and the last one, which alone
may be filled up, on its own. What it may be is what `encode` writes for one, two or three octets
(`lastOctets_eq_ok_iff`). So `decode?` accepts an input exactly if it is the encoding of some octets
(`decode?_eq_ok_iff`), and each text has one reading and each byte string one spelling.
-/

namespace ImageScoring.Base64

/-! ### The alphabet -/

theorem toNat_symbol (v : Nat) :
    (symbol v).toNat =
      if v < 26 then 0x41 + v
      else if v < 52 then 0x61 + (v - 26)
      else if v < 62 then 0x30 + (v - 52)
      else if v = 62 then 0x2B
      else 0x2F := by
  unfold symbol
  split_ifs
  · exact Utf8.toNat_ofNat_of_lt (by omega)
  · exact Utf8.toNat_ofNat_of_lt (by omega)
  · exact Utf8.toNat_ofNat_of_lt (by omega)
  · rfl
  · rfl

theorem value?_eq (b : UInt8) :
    value? b =
      if 0x41 ≤ b.toNat ∧ b.toNat ≤ 0x5A then some (b.toNat - 0x41)
      else if 0x61 ≤ b.toNat ∧ b.toNat ≤ 0x7A then some (b.toNat - 0x61 + 26)
      else if 0x30 ≤ b.toNat ∧ b.toNat ≤ 0x39 then some (b.toNat - 0x30 + 52)
      else if b.toNat = 0x2B then some 62
      else if b.toNat = 0x2F then some 63
      else none := by
  simp only [value?, UInt8.le_iff_toNat_le, ← UInt8.toNat_inj, Bool.and_eq_true, decide_eq_true_eq,
    beq_iff_eq]
  rfl

/-- The symbols of the alphabet and their values. -/
theorem value?_eq_some_iff {b : UInt8} {v : Nat} : value? b = some v ↔ v < 64 ∧ b = symbol v := by
  rw [value?_eq, ← UInt8.toNat_inj, toNat_symbol]
  constructor
  · intro h
    split_ifs at h
    all_goals
      obtain rfl := Option.some.inj h
      refine ⟨by omega, ?_⟩
      split_ifs <;> omega
  · rintro ⟨hv, hb⟩
    have hsome : ∀ {m : Nat}, m = v → some m = some v := congrArg some
    split_ifs at hb
    · rw [if_pos (by omega)]
      exact hsome (by omega)
    · rw [if_neg (by omega), if_pos (by omega)]
      exact hsome (by omega)
    · rw [if_neg (by omega), if_neg (by omega), if_pos (by omega)]
      exact hsome (by omega)
    · rw [if_neg (by omega), if_neg (by omega), if_neg (by omega), if_pos hb]
      exact hsome (by omega)
    · rw [if_neg (by omega), if_neg (by omega), if_neg (by omega), if_neg (by omega), if_pos hb]
      exact hsome (by omega)

theorem value?_symbol {v : Nat} (h : v < 64) : value? (symbol v) = some v :=
  value?_eq_some_iff.mpr ⟨h, rfl⟩

theorem symbol_ne_pad {v : Nat} (h : v < 64) : symbol v ≠ pad := by
  intro heq
  have hpad : value? pad = none := by decide
  rw [← heq, value?_symbol h] at hpad
  cases hpad

/-- Symbols that are all in the alphabet are those of their values. -/
theorem values?_eq_ok_iff {index : Nat} {bs : Bytes} {vs : List Nat} :
    values? index bs = .ok vs ↔ bs = vs.map symbol ∧ ∀ v ∈ vs, v < 64 := by
  induction bs generalizing index vs with
  | nil =>
    rw [values?]
    constructor
    · intro h
      obtain rfl := Except.ok.inj h
      simp
    · rintro ⟨h, -⟩
      rw [List.map_eq_nil_iff.mp h.symm]
  | cons b bs ih =>
    rw [values?]
    cases hv : value? b with
    | none =>
      refine ⟨nofun, ?_⟩
      rintro ⟨h, hlt⟩
      obtain - | ⟨v, vs⟩ := vs
      · cases h
      · rw [(List.cons.inj h).1, value?_symbol (hlt v (by simp))] at hv
        cases hv
    | some v =>
      obtain ⟨hlt, rfl⟩ := value?_eq_some_iff.mp hv
      dsimp only
      constructor
      · intro h
        rcases hrest : values? (index + 1) bs with fault | rest
        · rw [hrest] at h
          cases h
        · rw [hrest] at h
          obtain rfl := Except.ok.inj h
          obtain ⟨rfl, hall⟩ := ih.mp hrest
          exact ⟨rfl, by simpa [hlt] using hall⟩
      · rintro ⟨h, hall⟩
        obtain - | ⟨w, vs⟩ := vs
        · cases h
        · obtain ⟨hw, hvs⟩ := List.cons.inj h
          obtain rfl : v = w := by
            have hvalue := value?_symbol (hall w (by simp))
            rw [← hw, value?_symbol hlt] at hvalue
            exact Option.some.inj hvalue
          rw [ih.mpr ⟨hvs, fun x hx => hall x (by simp [hx])⟩]
          rfl

/-! ### Whole groups -/

/-- `Whole vs octets`: the values `vs` and the octets hold the same bits, four values for every
three octets. -/
inductive Whole : List Nat → Bytes → Prop where
  | nil : Whole [] []
  | group {vs : List Nat} {octets : Bytes} (a b c : UInt8) : Whole vs octets →
      Whole (a.toNat / 4 :: (a.toNat % 4 * 16 + b.toNat / 16) ::
        (b.toNat % 16 * 4 + c.toNat / 64) :: c.toNat % 64 :: vs) (a :: b :: c :: octets)

variable {vs : List Nat} {octets : Bytes}

theorem Whole.lt (h : Whole vs octets) : ∀ v ∈ vs, v < 64 := by
  induction h with
  | nil => simp
  | group a b c _ ih =>
    have ha := a.toNat_lt
    have hb := b.toNat_lt
    have hc := c.toNat_lt
    simp only [List.mem_cons]
    rintro v (rfl | rfl | rfl | rfl | hv)
    any_goals omega
    exact ih v hv

theorem Whole.length (h : Whole vs octets) : vs.length % 4 = 0 := by
  induction h with
  | nil => rfl
  | group a b c _ ih =>
    simp only [List.length_cons]
    omega

/-- They are written as symbols, and what stands behind them is written on its own. -/
theorem Whole.encode_append (h : Whole vs octets) (rest : Bytes) :
    encode (octets ++ rest) = vs.map symbol ++ encode rest := by
  induction h with
  | nil => rfl
  | group a b c _ ih =>
    simp only [List.cons_append, List.map_cons, encode, ih]

theorem Whole.groups_eq (h : Whole vs octets) : groups vs = octets := by
  induction h with
  | nil => rfl
  | group a b c _ ih =>
    have ha := a.toNat_lt
    have hb := b.toNat_lt
    have hc := c.toNat_lt
    rw [groups, ih, Utf8.ofNat_toNat_of (a := a) (by omega),
      Utf8.ofNat_toNat_of (a := b) (by omega), Utf8.ofNat_toNat_of (a := c) (by omega)]

theorem whole_groups (hlength : vs.length % 4 = 0) (h : ∀ v ∈ vs, v < 64) :
    Whole vs (groups vs) := by
  fun_induction groups vs with
  | case1 a b c d rest ih =>
    have ha := h a (by simp)
    have hb := h b (by simp)
    have hc := h c (by simp)
    have hd := h d (by simp)
    simp only [List.length_cons] at hlength
    have hrest := ih (by omega) fun v hv => h v (by simp [hv])
    have hgroup := Whole.group (UInt8.ofNat (a * 4 + b / 16)) (UInt8.ofNat (b % 16 * 16 + c / 4))
      (UInt8.ofNat (c % 4 * 64 + d)) hrest
    rw [Utf8.toNat_ofNat_of_lt (by omega), Utf8.toNat_ofNat_of_lt (by omega),
      Utf8.toNat_ofNat_of_lt (by omega), show (a * 4 + b / 16) / 4 = a by omega,
      show (a * 4 + b / 16) % 4 * 16 + (b % 16 * 16 + c / 4) / 16 = b by omega,
      show (b % 16 * 16 + c / 4) % 16 * 4 + (c % 4 * 64 + d) / 64 = c by omega,
      show (c % 4 * 64 + d) % 64 = d by omega] at hgroup
    exact hgroup
  | case2 vs hshort =>
    match vs, hlength, hshort with
    | [], _, _ => exact .nil
    | [_], hlength, _ | [_, _], hlength, _ | [_, _, _], hlength, _ => simp at hlength
    | a :: b :: c :: d :: rest, _, hshort => exact (hshort a b c d rest rfl).elim

/-- Octets are whole groups and, unless there are none, one to three more. -/
theorem exists_whole (octets : Bytes) (hne : octets ≠ []) :
    ∃ vs front last, Whole vs front ∧ octets = front ++ last ∧ 0 < last.length ∧
      last.length ≤ 3 := by
  match octets, hne with
  | [a], _ => exact ⟨[], [], [a], .nil, rfl, by simp, by simp⟩
  | [a, b], _ => exact ⟨[], [], [a, b], .nil, rfl, by simp, by simp⟩
  | [a, b, c], _ => exact ⟨[], [], [a, b, c], .nil, rfl, by simp, by simp⟩
  | a :: b :: c :: d :: rest, _ =>
    obtain ⟨vs, front, last, hwhole, heq, hpos, hle⟩ := exists_whole (d :: rest) (by simp)
    exact ⟨_, _, last, hwhole.group a b c, by rw [heq]; rfl, hpos, hle⟩

/-! ### The last group -/

/-- The values of symbols, and the symbols. -/
def paired (vs : List Nat) : List (Nat × UInt8) :=
  vs.map fun v => (v, symbol v)

theorem lastGroup?_of_padding {index place first count : Nat} {bs : Bytes}
    {answer : List (Nat × UInt8) × Nat}
    (h : lastGroup? index place (some (first, count)) bs = .ok answer) :
    ∃ more, bs = List.replicate more pad ∧ answer = ([], count + more) := by
  induction bs generalizing place count with
  | nil =>
    rw [lastGroup?] at h
    exact ⟨0, rfl, (Except.ok.inj h).symm⟩
  | cons b bs ih =>
    rw [lastGroup?] at h
    split_ifs at h with hb hplace
    · obtain ⟨more, rfl, rfl⟩ := ih h
      refine ⟨more + 1, by rw [hb]; rfl, ?_⟩
      rw [Nat.add_assoc, Nat.add_comm 1]

theorem lastGroup?_padding {index place first count : Nat} (hplace : 2 ≤ place) (more : Nat) :
    lastGroup? index place (some (first, count)) (List.replicate more pad) =
      .ok ([], count + more) := by
  induction more generalizing place count with
  | zero => rfl
  | succ more ih =>
    rw [List.replicate_succ, lastGroup?, if_pos rfl, if_neg (by omega)]
    dsimp only
    rw [ih (by omega), Nat.add_assoc, Nat.add_comm 1]

/-- The last group is symbols and what it is filled up with. -/
theorem exists_of_lastGroup? {index place : Nat} {bs : Bytes} {answer : List (Nat × UInt8) × Nat}
    (h : lastGroup? index place none bs = .ok answer) :
    ∃ vs count, bs = vs.map symbol ++ List.replicate count pad ∧ answer = (paired vs, count) ∧
      ∀ v ∈ vs, v < 64 := by
  induction bs generalizing place answer with
  | nil =>
    rw [lastGroup?] at h
    exact ⟨[], 0, rfl, (Except.ok.inj h).symm, by simp⟩
  | cons b bs ih =>
    rw [lastGroup?] at h
    split_ifs at h with hb hplace
    · obtain ⟨more, rfl, rfl⟩ := lastGroup?_of_padding h
      refine ⟨[], 1 + more, ?_, rfl, by simp⟩
      rw [hb, Nat.add_comm]
      rfl
    · cases hv : value? b with
      | none =>
        rw [hv] at h
        cases h
      | some v =>
        rw [hv] at h
        dsimp only at h
        rcases hrest : lastGroup? index (place + 1) none bs with fault | answer'
        · rw [hrest] at h
          cases h
        · rw [hrest] at h
          obtain ⟨hlt, rfl⟩ := value?_eq_some_iff.mp hv
          obtain ⟨vs, count, rfl, rfl, hall⟩ := ih hrest
          exact ⟨v :: vs, count, rfl, (Except.ok.inj h).symm, by simpa [hlt] using hall⟩

theorem lastGroup?_symbols {index place : Nat} {vs : List Nat} (h : ∀ v ∈ vs, v < 64) (count : Nat)
    (hplace : 2 ≤ place + vs.length) :
    lastGroup? index place none (vs.map symbol ++ List.replicate count pad) =
      .ok (paired vs, count) := by
  induction vs generalizing place with
  | nil =>
    simp only [List.length_nil] at hplace
    cases count with
    | zero => rfl
    | succ count =>
      rw [List.map_nil, List.nil_append, List.replicate_succ, lastGroup?, if_pos rfl,
        if_neg (by omega)]
      dsimp only
      rw [lastGroup?_padding (by omega), Nat.add_comm]
      rfl
  | cons v vs ih =>
    have hv := h v (by simp)
    simp only [List.length_cons] at hplace
    rw [List.map_cons, List.cons_append, lastGroup?, if_neg (symbol_ne_pad hv), value?_symbol hv]
    dsimp only
    rw [ih (fun w hw => h w (by simp [hw])) (by omega)]
    rfl

/-- The octets of the last group. -/
def last? (index : Nat) (bs : Bytes) : Except Fault Bytes :=
  match lastGroup? index 0 none bs with
  | .error fault => .error fault
  | .ok (group, padding) => lastOctets? index group padding

theorem lastOctets?_two (index a b : Nat) (x y : UInt8) :
    lastOctets? index [(a, x), (b, y)] 2 =
      if b % 16 ≠ 0 then .error (.invalidLastSymbol (index + 1) y)
      else .ok [UInt8.ofNat (a * 4 + b / 16)] := by
  simp [lastOctets?]

theorem lastOctets?_three (index a b c : Nat) (x y z : UInt8) :
    lastOctets? index [(a, x), (b, y), (c, z)] 1 =
      if c % 4 ≠ 0 then .error (.invalidLastSymbol (index + 2) z)
      else .ok [UInt8.ofNat (a * 4 + b / 16), UInt8.ofNat (b % 16 * 16 + c / 4)] := by
  simp [lastOctets?]

theorem lastOctets?_four (index a b c d : Nat) :
    lastOctets? index (paired [a, b, c, d]) 0 = .ok (groups [a, b, c, d]) := by
  simp [lastOctets?, paired]

/-- Two, three or four symbols fill the last group up to four. -/
theorem length_of_lastOctets? {index count : Nat} {group : List (Nat × UInt8)}
    (h : lastOctets? index group count = .ok octets) (hlength : group.length + count ≤ 4) :
    2 ≤ group.length ∧ group.length + count = 4 := by
  unfold lastOctets? at h
  split_ifs at h with htwo hfour
  omega

theorem encode_of_lastOctets? {index count : Nat} {vs : List Nat} (hall : ∀ v ∈ vs, v < 64)
    (hlength : vs.length + count ≤ 4) (h : lastOctets? index (paired vs) count = .ok octets) :
    vs.map symbol ++ List.replicate count pad = encode octets := by
  have hpaired : (paired vs).length = vs.length := List.length_map ..
  obtain ⟨htwo, hfour⟩ := length_of_lastOctets? h (by omega)
  match vs, hall with
  | [a, b], hall =>
    obtain rfl : count = 2 := by simp at hpaired; omega
    rw [paired, List.map, List.map, List.map, lastOctets?_two] at h
    split_ifs at h with hzero
    obtain rfl := Except.ok.inj h
    have ha := hall a (by simp)
    have hb := hall b (by simp)
    rw [encode, Utf8.toNat_ofNat_of_lt (by omega), show (a * 4 + b / 16) / 4 = a by omega,
      show (a * 4 + b / 16) % 4 * 16 = b by omega]
    rfl
  | [a, b, c], hall =>
    obtain rfl : count = 1 := by simp at hpaired; omega
    rw [paired, List.map, List.map, List.map, List.map, lastOctets?_three] at h
    split_ifs at h with hzero
    obtain rfl := Except.ok.inj h
    have ha := hall a (by simp)
    have hb := hall b (by simp)
    have hc := hall c (by simp)
    rw [encode, Utf8.toNat_ofNat_of_lt (by omega), Utf8.toNat_ofNat_of_lt (by omega),
      show (a * 4 + b / 16) / 4 = a by omega,
      show (a * 4 + b / 16) % 4 * 16 + (b % 16 * 16 + c / 4) / 16 = b by omega,
      show (b % 16 * 16 + c / 4) % 16 * 4 = c by omega]
    rfl
  | [a, b, c, d], hall =>
    obtain rfl : count = 0 := by simp at hpaired; omega
    rw [lastOctets?_four] at h
    obtain rfl := Except.ok.inj h
    have hwhole := (whole_groups (by simp) hall).encode_append []
    rw [List.append_nil] at hwhole
    exact hwhole.symm
  | [], _ | [_], _ => simp [paired] at htwo
  | _ :: _ :: _ :: _ :: _ :: _, _ => simp at hlength; omega

theorem last?_encode (index : Nat) (hpos : 0 < octets.length) (hle : octets.length ≤ 3) :
    last? index (encode octets) = .ok octets := by
  match octets with
  | [a] =>
    have ha := a.toNat_lt
    have hlt : ∀ v ∈ [a.toNat / 4, a.toNat % 4 * 16], v < 64 := by simp; omega
    have hgroup : lastGroup? index 0 none (encode [a]) = .ok (paired _, 2) :=
      lastGroup?_symbols hlt 2 (by simp)
    rw [last?, hgroup]
    dsimp only [paired, List.map]
    rw [lastOctets?_two, if_neg (by omega), Utf8.ofNat_toNat_of (a := a) (by omega)]
  | [a, b] =>
    have ha := a.toNat_lt
    have hb := b.toNat_lt
    have hlt : ∀ v ∈ [a.toNat / 4, a.toNat % 4 * 16 + b.toNat / 16, b.toNat % 16 * 4],
        v < 64 := by simp; omega
    have hgroup : lastGroup? index 0 none (encode [a, b]) = .ok (paired _, 1) :=
      lastGroup?_symbols hlt 1 (by simp)
    rw [last?, hgroup]
    dsimp only [paired, List.map]
    rw [lastOctets?_three, if_neg (by omega), Utf8.ofNat_toNat_of (a := a) (by omega),
      Utf8.ofNat_toNat_of (a := b) (by omega)]
  | [a, b, c] =>
    have hwhole := Whole.group a b c .nil
    have hsymbols := hwhole.encode_append []
    rw [List.append_nil] at hsymbols
    have hgroup := @lastGroup?_symbols index 0 _ hwhole.lt 0 (by simp)
    rw [List.replicate_zero] at hgroup
    rw [hsymbols, encode, last?, hgroup]
    dsimp only
    rw [lastOctets?_four, hwhole.groups_eq]
  | [] => simp at hpos
  | _ :: _ :: _ :: _ :: _ => simp only [List.length_cons] at hle; omega

/-- The last group is what is written for one, two or three octets. -/
theorem last?_eq_ok {index : Nat} {bs : Bytes} (hlength : bs.length ≤ 4)
    (h : last? index bs = .ok octets) : bs = encode octets := by
  rw [last?] at h
  rcases hgroup : lastGroup? index 0 none bs with fault | answer
  · rw [hgroup] at h
    cases h
  · rw [hgroup] at h
    obtain ⟨vs, count, rfl, rfl, hall⟩ := exists_of_lastGroup? hgroup
    rw [List.length_append, List.length_map, List.length_replicate] at hlength
    exact encode_of_lastOctets? hall hlength h

/-! ### All groups -/

theorem length_encode_last (hpos : 0 < octets.length) (hle : octets.length ≤ 3) :
    (encode octets).length = 4 := by
  match octets with
  | [a] | [a, b] | [a, b, c] => rfl
  | [] => simp at hpos
  | _ :: _ :: _ :: _ :: _ => simp only [List.length_cons] at hle; omega

/-- Reading takes the groups but the last, and the last. -/
theorem decode?_eq (bs : Bytes) :
    decode? bs =
      match strayLast? bs with
      | some fault => .error fault
      | none =>
        (values? 0 (bs.take (bodyLength bs.length))).bind fun body =>
          if bs.drop (bodyLength bs.length) = [] then .ok []
          else (last? (bodyLength bs.length) (bs.drop (bodyLength bs.length))).map
            (groups body ++ ·) := by
  rw [decode?]
  cases strayLast? bs with
  | some fault => rfl
  | none =>
    dsimp only
    rcases values? 0 (bs.take (bodyLength bs.length)) with fault | body
    · rfl
    · dsimp only [Except.bind]
      rcases bs.drop (bodyLength bs.length) with - | ⟨b, last⟩
      · rfl
      · dsimp only
        rw [if_neg (by simp), last?]
        rcases lastGroup? (bodyLength bs.length) 0 none (b :: last) with
          fault | ⟨group, padding⟩ <;> rfl

theorem bodyLength_mod (n : Nat) : bodyLength n % 4 = 0 := by
  unfold bodyLength
  split <;> omega

theorem bodyLength_of_pos {n : Nat} (h : 0 < n) : bodyLength n < n ∧ n ≤ bodyLength n + 4 := by
  unfold bodyLength
  split <;> omega

theorem decode?_encode (octets : Bytes) : decode? (encode octets) = .ok octets := by
  by_cases hne : octets = []
  · rw [hne]
    rfl
  obtain ⟨vs, front, last, hwhole, rfl, hpos, hle⟩ := exists_whole octets hne
  have hlast := length_encode_last hpos hle
  have hfour := hwhole.length
  have hvs : (vs.map symbol).length = vs.length := List.length_map ..
  have hlength : (vs.map symbol ++ encode last).length = vs.length + 4 := by
    rw [List.length_append, hvs, hlast]
  have hbody : bodyLength (vs.length + 4) = vs.length := by
    unfold bodyLength
    rw [if_pos (by omega), Nat.add_sub_cancel]
  have hstray : strayLast? (vs.map symbol ++ encode last) = none := by
    rw [strayLast?, hlength, if_neg (by omega)]
  have hnonempty : encode last ≠ [] := List.ne_nil_of_length_pos (by omega)
  rw [decode?_eq, hwhole.encode_append, hstray, hlength, hbody, List.take_left' hvs,
    List.drop_left' hvs, values?_eq_ok_iff.mpr ⟨rfl, hwhole.lt⟩]
  dsimp only [Except.bind]
  rw [if_neg hnonempty, last?_encode _ hpos hle, hwhole.groups_eq]
  rfl

theorem encode_of_decode? {bs : Bytes} (h : decode? bs = .ok octets) : bs = encode octets := by
  rw [decode?_eq] at h
  cases hstray : strayLast? bs with
  | some fault =>
    rw [hstray] at h
    cases h
  | none =>
    rw [hstray] at h
    dsimp only at h
    have hsplit := List.take_append_drop (bodyLength bs.length) bs
    rcases hbody : values? 0 (bs.take (bodyLength bs.length)) with fault | body
    · rw [hbody] at h
      cases h
    rw [hbody] at h
    dsimp only [Except.bind] at h
    obtain ⟨htake, hall⟩ := values?_eq_ok_iff.mp hbody
    split_ifs at h with hdrop
    · -- only of nothing there is no last group
      have hzero : bs.length = 0 := by
        by_contra hpos
        have hlt := (bodyLength_of_pos (Nat.pos_of_ne_zero hpos)).1
        have hlength := congrArg List.length hdrop
        rw [List.length_drop, List.length_nil] at hlength
        omega
      rw [List.length_eq_zero_iff.mp hzero, ← Except.ok.inj h]
      rfl
    · have hpos : 0 < bs.length := by
        by_contra hzero
        rw [List.length_eq_zero_iff.mp (Nat.eq_zero_of_not_pos hzero), List.drop_nil] at hdrop
        exact hdrop rfl
      obtain ⟨hlt, hle⟩ := bodyLength_of_pos hpos
      rcases hlast : last? (bodyLength bs.length) (bs.drop (bodyLength bs.length)) with fault | last
      · rw [hlast] at h
        cases h
      rw [hlast] at h
      have hfour : (bs.drop (bodyLength bs.length)).length ≤ 4 := by
        rw [List.length_drop]
        omega
      have hbodyLength : body.length = bodyLength bs.length := by
        rw [← List.length_map (f := symbol), ← htake, List.length_take]
        omega
      have hwhole := whole_groups (hbodyLength ▸ bodyLength_mod bs.length) hall
      rw [← hsplit, htake, last?_eq_ok hfour hlast, ← hwhole.encode_append]
      exact congrArg encode (Except.ok.inj h)

/-- **Reading base64 is undoing its writing**: an input is read as some octets exactly if it is
their base64. -/
theorem decode?_eq_ok_iff {bs : Bytes} : decode? bs = .ok octets ↔ bs = encode octets :=
  ⟨encode_of_decode?, fun h => h ▸ decode?_encode octets⟩

example : encode (ascii "fooba") = ascii "Zm9vYmE=" := by decide

end ImageScoring.Base64
