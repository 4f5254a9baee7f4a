import ImageScoring.Proofs.Reply.Cut
import ImageScoring.Proofs.Reply.Spelling

/-!
# Replies that are cut short

A worker can die at any octet of a reply. What it has written then begins a reply (`Begun`), and a
session reads it as far as it goes: it hands over the attributes that are whole, and no other ones,
and then fails or meets something malformed. It completes only if it tells what the whole reply
tells (`cut_reply_invents_nothing`). A length is cut off like anything else, and its first digits
are a length; but there is nothing behind them, and so the sized part is missed.
-/

namespace ImageScoring

namespace Reply

/-- The octets begin what these pieces spell. -/
def Begun (pieces : List Piece) (cut : Bytes) : Prop :=
  ∃ stream, Spelled pieces stream ∧ cut <+: stream

end Reply

namespace Reader

open Reply

variable {pieces : List Piece} {cut : Bytes}

/-! ### Reading what is cut off -/

/-- A line that is cut off is nothing, or the beginning of its text. -/
theorem line_of_begun {text : Bytes} (hn : newline ∉ text)
    (hr : text.getLast? ≠ some carriageReturn) (h : Begun (.line text :: pieces) cut) :
    line { rest := cut } = .error .closedInRecord ∨
      (∃ part, part <+: text ∧ part ≠ text ∧ line { rest := cut } = .ok (part, { rest := [] })) ∨
      ∃ cut', Begun pieces cut' ∧ line { rest := cut } = .ok (text, { rest := cut' }) := by
  obtain ⟨stream, hs, hp⟩ := h
  cases hs with
  | @line _ stop rest _ hstop hrest =>
    have htext := dropReturn_of_stop hr hstop
    have hl := newline_notMem_of_stop hn hstop
    by_cases hinside : cut <+: text ++ stop
    · by_cases hne : cut = []
      · subst hne
        exact .inl rfl
      · have hline := line_of (r := { rest := cut })
          (line_of_part hne fun hmem => hl (hinside.subset hmem))
        have hpart := dropReturn_mono hinside
        rw [htext] at hpart
        by_cases hwhole : dropReturn cut = text
        · rw [hwhole] at hline
          exact .inr (.inr ⟨[], ⟨rest, hrest, List.nil_prefix⟩, hline⟩)
        · exact .inr (.inl ⟨_, hpart, hwhole, hline⟩)
    · obtain ⟨behind, rfl⟩ := (List.prefix_or_prefix_of_prefix hp
        (List.prefix_append (text ++ stop) _)).resolve_left hinside
      rw [List.prefix_append_right_inj] at hp
      cases behind with
      | nil => simp at hinside
      | cons b behind =>
        obtain ⟨rfl, hbehind⟩ := List.cons_prefix_cons.mp hp
        have hended : Line .closed (dropReturn (text ++ stop)) (text ++ stop ++ newline :: behind)
            behind := .ended hl
        rw [htext] at hended
        exact .inr (.inr ⟨behind, ⟨rest, hrest, hbehind⟩, line_of (r := { rest := _ }) hended⟩)

/-- Octets that are cut off are a fault. -/
theorem payload_of_begun {part : Bytes} (h : Begun (.octets part :: pieces) cut) :
    (∃ received, payload part.length { rest := cut } =
      .error (.closedInPayload received part.length)) ∨
    ∃ cut', Begun pieces cut' ∧ payload part.length { rest := cut } =
      .ok (part, { rest := cut' }) := by
  obtain ⟨stream, hs, hp⟩ := h
  cases hs with
  | @octets _ rest _ hrest =>
    by_cases hinside : cut.length < part.length
    · refine .inl ⟨cut.length, ?_⟩
      have htaken : cut.take part.length = cut := List.take_of_length_le (Nat.le_of_lt hinside)
      unfold payload
      dsimp only
      rw [htaken, if_pos hinside]
      rfl
    · obtain ⟨behind, rfl⟩ := List.prefix_of_prefix_length_le (List.prefix_append part rest) hp
        (Nat.le_of_not_lt hinside)
      rw [List.prefix_append_right_inj] at hp
      exact .inr ⟨behind, ⟨rest, hrest, hp⟩, payload_eq_ok_iff.mpr ⟨behind, rfl, rfl, rfl⟩⟩

theorem terminator_of_begun (h : Begun (.octets [newline] :: pieces) cut) :
    terminator { rest := cut } = .error .closedAtTerminator ∨
      ∃ cut', Begun pieces cut' ∧ terminator { rest := cut } = .ok (true, { rest := cut' }) := by
  obtain ⟨stream, hs, hp⟩ := h
  cases hs with
  | @octets _ rest _ hrest =>
    cases cut with
    | nil => exact .inl rfl
    | cons b behind =>
      obtain ⟨rfl, hbehind⟩ := List.cons_prefix_cons.mp hp
      exact .inr ⟨behind, ⟨rest, hrest, hbehind⟩, rfl⟩

/-- `Clipped part pieces answer`: the part is read whole, and the octets behind it begin what the
other pieces spell. Or the stream ends, or what is left of it is malformed. -/
inductive Clipped {α : Type} (part : α) (pieces : List Piece) :
    Except Stop (α × Reader) → Prop where
  | fault {fault : ReadFault} : fault ≠ .hung → Clipped part pieces (.error (.fault fault))
  | malformed {error : FramingError} {r : Reader} :
      Clipped part pieces (.error (.malformed error r))
  | whole {cut : Bytes} : Begun pieces cut → Clipped part pieces (.ok (part, { rest := cut }))

/-- Where a length is cut off, more octets are asked for than are left, which is none. -/
theorem sized_of_begun {part : Bytes} (hfits : part.length < Count.lengthLimit)
    (h : Begun (sizedPieces part ++ pieces) cut) :
    Clipped part pieces (sized { rest := cut }) := by
  rcases line_of_begun (newline_notMem_countLine _) (getLast?_countLine _) h with
    hline | ⟨digits, hdigits, hne, hline⟩ | ⟨cut', hcut, hline⟩
  · rw [sized, hline]
    exact .fault (by decide)
  · rw [sized, hline]
    dsimp only
    by_cases hnone : digits = []
    · subst hnone
      exact .malformed
    · obtain ⟨m, hm, hpos⟩ := Count.ofLine?_of_prefix hfits hnone hdigits hne
      have hpayload : payload m { rest := [] } = .error (.closedInPayload 0 m) := by
        simp [payload, hpos, faultAtEnd]
      rw [hm]
      dsimp only
      rw [hpayload]
      exact .fault (by simp)
  · have hm := Count.ofLine?_eq_some_iff.mpr (Count.spells_line hfits)
    rw [sized, hline]
    dsimp only
    rw [hm]
    dsimp only
    rcases payload_of_begun hcut with ⟨received, hpayload⟩ | ⟨cut'', hcut', hpayload⟩
    · rw [hpayload]
      exact .fault (by simp)
    · rw [hpayload]
      exact .whole hcut'

theorem field_of_begun {marker part : Bytes} (hn : newline ∉ marker)
    (hr : marker.getLast? ≠ some carriageReturn) (hfits : part.length < Count.lengthLimit)
    (h : Begun (fieldPieces marker part ++ pieces) cut) :
    Clipped part pieces (field marker { rest := cut }) := by
  rcases line_of_begun hn hr h with hline | ⟨text, -, hne, hline⟩ | ⟨cut', hcut, hline⟩
  · rw [field, hline]
    exact .fault (by decide)
  · rw [field, hline]
    dsimp only
    rw [if_pos hne]
    exact .malformed
  · change Begun (_ ++ _ ++ pieces) cut' at hcut
    rw [List.append_assoc] at hcut
    have hsized := sized_of_begun hfits hcut
    rw [field, hline]
    dsimp only
    rw [if_neg (not_not.mpr rfl)]
    generalize sized { rest := cut' } = answer at hsized ⊢
    cases hsized with
    | fault hclosed => exact .fault hclosed
    | malformed => exact .malformed
    | @whole cut'' hcut' =>
      dsimp only
      rcases terminator_of_begun hcut' with hends | ⟨cut₃, hcut₃, hends⟩
      · rw [hends]
        exact .fault (by decide)
      · rw [hends]
        exact .whole hcut₃

theorem attributeBody_of_begun {a : Attribute} (hkey : a.key.length < Count.lengthLimit)
    (hvalue : a.value.length < Count.lengthLimit)
    (h : Begun (fieldPieces keyMarker a.key ++ (fieldPieces valueMarker a.value ++ pieces)) cut) :
    Clipped a pieces (attributeBody { rest := cut }) := by
  have hk := field_of_begun (by decide) (by decide) hkey h
  unfold attributeBody
  generalize field keyMarker { rest := cut } = answer at hk ⊢
  cases hk with
  | fault hclosed => exact .fault hclosed
  | malformed => exact .malformed
  | @whole cut' hcut =>
    have hv := field_of_begun (by decide) (by decide) hvalue hcut
    dsimp only
    generalize field valueMarker { rest := cut' } = answer at hv ⊢
    cases hv with
    | fault hclosed => exact .fault hclosed
    | malformed => exact .malformed
    | whole hcut' => exact .whole hcut'

/-- A header that is cut off is nothing, or a line that is no header. -/
theorem header_of_begun {text : Bytes} (htext : text ∈ headerLines)
    (h : Begun (.line text :: pieces) cut) :
    header { rest := cut } = .error .closedInRecord ∨
      (∃ part, header { rest := cut } = .ok (.other part, { rest := [] })) ∨
      ∃ cut', Begun pieces cut' ∧
        header { rest := cut } = .ok (.ofLine text, { rest := cut' }) := by
  have hplain : ∀ text ∈ headerLines,
      newline ∉ text ∧ text.getLast? ≠ some carriageReturn := by decide
  obtain ⟨hn, hr⟩ := hplain text htext
  rw [header, headerLine_of_skipBlank rfl]
  rcases line_of_begun hn hr h with hline | ⟨part, hpart, hne, hline⟩ | ⟨cut', hcut, hline⟩
  · rw [hline]
    exact .inl rfl
  · rw [hline]
    refine .inr (.inl ⟨part, ?_⟩)
    dsimp only
    rw [Header.ofLine_of_part htext hpart hne]
  · rw [hline]
    exact .inr (.inr ⟨cut', hcut, rfl⟩)

theorem attribute_of_begun {a : Attribute} (hkey : a.key.length < Count.lengthLimit)
    (hvalue : a.value.length < Count.lengthLimit)
    (h : Begun (attributePieces a ++ pieces) cut) :
    (∃ fault, fault ≠ .hung ∧ record { rest := cut } = .error fault) ∨
      (∃ error r, record { rest := cut } = .ok (.malformed error, r)) ∨
      ∃ cut', Begun pieces cut' ∧ record { rest := cut } = .ok (.attr a, { rest := cut' }) := by
  rw [record]
  rcases header_of_begun (by decide) h with hheader | ⟨part, hheader⟩ | ⟨cut', hcut, hheader⟩
  · rw [hheader]
    exact .inl ⟨_, by decide, rfl⟩
  · rw [hheader]
    exact .inr (.inl ⟨_, _, rfl⟩)
  · rw [hheader, Header.ofLine_eq_attr_iff.mpr rfl]
    change Begun (_ ++ _ ++ pieces) cut' at hcut
    rw [List.append_assoc] at hcut
    have hbody := attributeBody_of_begun hkey hvalue hcut
    dsimp only
    generalize attributeBody { rest := cut' } = answer at hbody ⊢
    cases hbody with
    | fault hclosed => exact .inl ⟨_, hclosed, rfl⟩
    | malformed => exact .inr (.inl ⟨_, _, rfl⟩)
    | whole hcut' => exact .inr (.inr ⟨_, hcut', rfl⟩)

theorem result_of_begun {payload : Bytes} (hfits : payload.length < Count.lengthLimit)
    (h : Begun (resultPieces payload) cut) :
    (∃ fault, fault ≠ .hung ∧ record { rest := cut } = .error fault) ∨
      (∃ error r, record { rest := cut } = .ok (.malformed error, r)) ∨
      ∃ r, record { rest := cut } = .ok (.result (Prefix.value payload), r) := by
  rw [record]
  rcases header_of_begun (by decide) h with hheader | ⟨part, hheader⟩ | ⟨cut', hcut, hheader⟩
  · rw [hheader]
    exact .inl ⟨_, by decide, rfl⟩
  · rw [hheader]
    exact .inr (.inl ⟨_, _, rfl⟩)
  · rw [hheader, Header.ofLine_eq_result_iff.mpr rfl]
    rw [← List.append_nil (sizedPieces payload)] at hcut
    have hsized := sized_of_begun hfits hcut
    dsimp only
    rw [resultBody]
    generalize sized { rest := cut' } = answer at hsized ⊢
    cases hsized with
    | fault hclosed => exact .inl ⟨_, hclosed, rfl⟩
    | malformed => exact .inr (.inl ⟨_, _, rfl⟩)
    | whole _ => exact .inr (.inr ⟨_, rfl⟩)

end Reader

namespace Reply

namespace Session

variable {ω : Type}

/-! ### A session on what is cut off -/

/-- `Salvaged sink store attributes whole run taken`: the run has handed over the first attributes,
`taken`, of these. Unless the sink refuses the last one of them, the run has told the whole outcome
after all attributes, or fails, or has met something malformed. -/
def Salvaged (sink : Sink ω) (store : ω) (attributes : List Attribute) (whole : Outcome)
    (run : Run ω) (taken : List Attribute) : Prop :=
  taken <+: attributes ∧ match offer sink store taken with
    | (store', .error (e, left)) => run.store = store' ∧ left = [] ∧ run.answer = .error e
    | (store', .ok ()) => run.store = store' ∧
      (run.answer = .ok whole ∧ taken = attributes ∨
        (∃ error, run.answer = .ok (.framing error)) ∨ ∃ cause, run.answer = .error (.io cause))

variable {sink : Sink ω} {cut : Bytes}

/-- A run that fails before the first attribute is whole. -/
theorem salvaged_of_broken {store : ω} {attributes : List Attribute} {whole : Outcome} {s : Session}
    {fault : ReadFault} {r : Reader} (h : fault ≠ .hung) :
    Salvaged sink store attributes whole (broken s fault r store) [] :=
  ⟨List.nil_prefix, rfl, .inr (.inr ⟨_, congrArg Except.error (faultError_eq_io_iff.mpr ⟨h, rfl⟩)⟩)⟩

/-- A run that meets something malformed before the first attribute is whole. -/
theorem salvaged_of_malformed {store : ω} {attributes : List Attribute} {whole : Outcome}
    {s : Session} {error : FramingError} {r : Reader} :
    Salvaged sink store attributes whole (malformed s error r store) [] :=
  ⟨List.nil_prefix, rfl, .inr (.inl ⟨error, rfl⟩)⟩

/-- Where no attribute is read, the stream starts with none. -/
theorem nil_of_no_attribute (h : ∀ a r, Reader.record { rest := cut } ≠ .ok (.attr a, r))
    {attributes : List Attribute} {rest : Bytes} (ha : Attributes .closed attributes cut rest) :
    attributes <+: [] := by
  cases ha with
  | nil => exact List.prefix_rfl
  | cons hblock _ => exact absurd ((Reader.record_eq_attr_iff rfl).mpr ⟨_, hblock, rfl⟩) (h _ _)

/-- Behind `BEGIN`, by induction on the attributes of the whole reply. -/
theorem records_of_begun (sink : Sink ω) {payload : Bytes}
    (hfits : payload.length < Count.lengthLimit) (count : Nat) (store : ω)
    {attributes : List Attribute}
    (hkeys : ∀ a ∈ attributes, a.key.length < Count.lengthLimit)
    (hvalues : ∀ a ∈ attributes, a.value.length < Count.lengthLimit)
    (h : Begun (attributes.flatMap attributePieces ++ resultPieces payload) cut) :
    ∃ taken, Salvaged sink store attributes
        (.completed (Prefix.value payload) (count + attributes.length))
        (records sink count { rest := cut } store) taken ∧
      ((offer sink store taken).2 = .ok () →
        ∀ attributes' rest, Attributes .closed attributes' cut rest → attributes' <+: taken) := by
  induction attributes generalizing count store cut with
  | nil =>
    rw [records_eq]
    rcases Reader.result_of_begun hfits h with
      ⟨fault, hclosed, hrecord⟩ | ⟨error, r, hrecord⟩ | ⟨r, hrecord⟩
    · rw [hrecord]
      exact ⟨[], salvaged_of_broken hclosed,
        fun _ _ _ => nil_of_no_attribute fun a r => by simp [hrecord]⟩
    · rw [hrecord]
      exact ⟨[], salvaged_of_malformed,
        fun _ _ _ => nil_of_no_attribute fun a r => by simp [hrecord]⟩
    · rw [hrecord]
      exact ⟨[], ⟨List.nil_prefix, rfl, .inl ⟨rfl, rfl⟩⟩,
        fun _ _ _ => nil_of_no_attribute fun a r => by simp [hrecord]⟩
  | cons a attributes ih =>
    rw [List.flatMap_cons, List.append_assoc] at h
    have hread := Reader.attribute_of_begun (hkeys a (by simp)) (hvalues a (by simp)) h
    rw [records_eq]
    rcases hread with ⟨fault, hclosed, hrecord⟩ | ⟨error, r, hrecord⟩ | ⟨cut', hcut, hrecord⟩
    · rw [hrecord]
      exact ⟨[], salvaged_of_broken hclosed,
        fun _ _ _ => nil_of_no_attribute fun a r => by simp [hrecord]⟩
    · rw [hrecord]
      exact ⟨[], salvaged_of_malformed,
        fun _ _ _ => nil_of_no_attribute fun a r => by simp [hrecord]⟩
    · rw [hrecord]
      dsimp only
      rcases hsink : sink store a with ⟨store', e | ⟨⟩⟩
      · refine ⟨[a], ⟨List.prefix_append [a] attributes, ?_⟩, fun ho => ?_⟩
        · simp [offer, hsink]
        · simp [offer, hsink] at ho
      · obtain ⟨taken, ⟨hp, hsalvaged⟩, hall⟩ := ih (count + 1) store'
          (fun b hb => hkeys b (by simp [hb])) (fun b hb => hvalues b (by simp [hb])) hcut
        have hoffer : offer sink store (a :: taken) = offer sink store' taken := by
          rw [offer, hsink]
        refine ⟨a :: taken, ⟨List.cons_prefix_cons.mpr ⟨rfl, hp⟩, ?_⟩, ?_⟩
        · rw [hoffer, List.length_cons, ← Nat.add_assoc, Nat.add_right_comm]
          simpa only [List.cons.injEq, true_and] using hsalvaged
        · rw [hoffer]
          intro ho attributes' rest ha
          cases ha with
          | nil => exact List.nil_prefix
          | cons hblock hmore =>
            obtain ⟨s, hblock', hs⟩ := (Reader.record_eq_attr_iff rfl).mp hrecord
            obtain ⟨rfl, rfl⟩ := hblock.unique hblock'
            obtain rfl : cut' = _ := congrArg Reader.rest hs
            exact List.cons_prefix_cons.mpr ⟨rfl, hall ho _ _ hmore⟩

/-- **A reply that is cut short invents nothing.** Spelled with its lengths in plain digits, a reply
tells its attributes and its result. A new session on any beginning of it hands over the first of
these attributes, all that are whole unless the sink refuses one, and no others. If the sink refuses
none of them, the session completes with what the whole reply tells, or meets something malformed,
or fails. -/
theorem cut_reply_invents_nothing (sink : Sink ω) (c : Content) (stream : Bytes)
    (hspelled : Spelled c.pieces stream) (store : ω) :
    Framed .closed c.attributes c.payload stream [] ∧
    ∀ cut, cut <+: stream → ∃ taken,
      Salvaged sink store c.attributes (.completed (Prefix.value c.payload) c.attributes.length)
        (run sink {} { rest := cut } store) taken ∧
      ((offer sink store taken).2 = .ok () →
        ∀ attributes rest, Opened .closed attributes cut rest → attributes <+: taken) := by
  refine ⟨Content.framed_of_spelled hspelled, fun cut hcut => ?_⟩
  have hbegun : Begun c.pieces cut := ⟨stream, hspelled, hcut⟩
  have hunopened (hno : ∀ r, Reader.header { rest := cut } ≠ .ok (.opening, r)) :
      ∀ attributes rest, Opened .closed attributes cut rest → attributes <+: [] := by
    rintro attributes rest ⟨hl, -⟩
    exact absurd (header_of_line hl) (hno _)
  rcases Reader.header_of_begun (by decide) hbegun with
    hheader | ⟨part, hheader⟩ | ⟨cut', hbody, hheader⟩
  · simp only [run, hheader]
    exact ⟨[], salvaged_of_broken (by decide), fun _ => hunopened fun r => by simp [hheader]⟩
  · simp only [run, hheader]
    exact ⟨[], salvaged_of_malformed, fun _ => hunopened fun r => by simp [hheader]⟩
  · rw [Header.ofLine_eq_opening_iff.mpr rfl] at hheader
    obtain ⟨taken, hsalvaged, hall⟩ := records_of_begun sink c.payload_fits 0 store
      c.keys_fit c.values_fit hbody
    refine ⟨taken, ?_, fun ho attributes rest hopened => ?_⟩
    · rw [Nat.zero_add] at hsalvaged
      simp only [run, hheader]
      exact hsalvaged
    · obtain ⟨hl, ha⟩ := hopened
      have hsame := header_of_line hl
      rw [hheader] at hsame
      simp only [Except.ok.injEq, Prod.mk.injEq, Reader.mk.injEq, true_and, and_true] at hsame
      exact hall ho attributes rest (hsame ▸ ha)

/-- A reply with an attribute and an empty result. -/
def emptyResult : Content :=
  ⟨[⟨ascii "size", ascii "12"⟩], [], by decide, by decide, (by decide : 0 < Count.lengthLimit)⟩

/-- The newline behind the length of an empty result is missed by nobody. -/
theorem cut_before_last_newline :
    (Spelled emptyResult.pieces emptyResult.toResult ∧
      emptyResult.toResult.dropLast <+: emptyResult.toResult) ∧
    (run (accepting collect) {} { rest := emptyResult.toResult.dropLast } []).answer =
      .ok (.completed (Prefix.value []) 1) ∧
    ∃ taken, Salvaged (accepting collect) [] emptyResult.attributes
      (.completed (Prefix.value emptyResult.payload) emptyResult.attributes.length)
      (run (accepting collect) {} { rest := emptyResult.toResult.dropLast } []) taken := by
  have hspelled := emptyResult.spelled_toResult
  have hcut : emptyResult.toResult.dropLast <+: emptyResult.toResult := List.dropLast_prefix _
  obtain ⟨taken, hsalvaged, -⟩ :=
    (cut_reply_invents_nothing (accepting collect) emptyResult _ hspelled []).2 _ hcut
  exact ⟨⟨hspelled, hcut⟩, by decide +kernel, taken, hsalvaged⟩

end Session

end Reply

end ImageScoring
