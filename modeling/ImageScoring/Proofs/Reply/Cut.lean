import ImageScoring.Proofs.Reply.Opening
import ImageScoring.Proofs.Reply.Recovery

/-!
# Replies that are cut off

A worker can die at any octet, and its last line is then cut off. The line reader ends a line at the
end of the stream too, so what is left of the line is read like a whole one. `Cut` says where a
reply can be cut inside a header line; a session fails on what is left only if that is nothing, or
all of the line but its end, and takes it for a malformed line otherwise. Of a bare reply every
octet that is left is taken for the number.
-/

namespace ImageScoring

namespace Reader

theorem prefix_dropReturn (line : Bytes) : dropReturn line <+: line := by
  unfold dropReturn
  split_ifs
  · exact List.dropLast_prefix line
  · exact List.prefix_rfl

/-- The beginnings of a line, without the carriage return at their end, are beginnings of its
text. -/
theorem dropReturn_mono {part line : Bytes} (h : part <+: line) :
    dropReturn part <+: dropReturn line := by
  by_cases hr : line.getLast? = some carriageReturn
  · obtain ⟨text, rfl⟩ := List.getLast?_eq_some_iff.mp hr
    rcases List.prefix_concat_iff.mp h with rfl | hpart
    · exact List.prefix_rfl
    · have htext : dropReturn (text ++ [carriageReturn]) = text := by simp [dropReturn]
      rw [htext]
      exact (prefix_dropReturn part).trans hpart
  · have hline : dropReturn line = line := if_neg hr
    rw [hline]
    exact (prefix_dropReturn part).trans h

/-- What is left of a line at the end of the stream is a line. -/
theorem line_of_part {part : Bytes} (hne : part ≠ []) (hn : newline ∉ part) :
    Reply.Line .closed (dropReturn part) part [] :=
  .last rfl hne hn

/-- Every beginning of a bare reply but the empty one is taken for its number. -/
theorem bare_of_part {part : Bytes} (hne : part ≠ []) (hn : newline ∉ part) :
    bare { rest := part } =
      .ok (.completed (Prefix.value (dropReturn part)) 0, { rest := [] }) := by
  rw [bare, headerLine_of_skipBlank (r := { rest := part }) rfl,
    line_of (r := { rest := part }) (line_of_part hne hn)]

end Reader

namespace Reply

open Reader (dropReturn)

/-- The lines that are headers. -/
def headerLines : List Bytes := [beginLine, attributeLine, resultLine]

/-- No header line is the beginning of another one. -/
theorem eq_of_prefix_headerLine : ∀ text ∈ headerLines, ∀ line ∈ headerLines,
    text <+: line → text = line := by
  decide

/-- A line that starts one of the header lines, and is not all of it, is no header. -/
theorem Header.ofLine_of_part {text line : Bytes} (hline : line ∈ headerLines)
    (hp : text <+: line) (hne : text ≠ line) : Header.ofLine text = .other text := by
  have hno : ∀ header ∈ headerLines, text ≠ header := by
    rintro header hheader rfl
    exact hne (eq_of_prefix_headerLine text hheader line hline hp)
  rw [Header.ofLine, if_neg (hno beginLine (by decide)), if_neg (hno attributeLine (by decide)),
    if_neg (hno resultLine (by decide))]

/-- `Cut reply taken header wrong part stream`: the stream is what is left of a reply that is cut
inside a header line that reads `header`. Whole attributes `taken` stand before that line, `part` is
left of it, and `wrong` is what a session makes of another line there. -/
inductive Cut (reply : WellFormed) :
    List Attribute → Bytes → (Bytes → FramingError) → Bytes → Bytes → Prop where
  | opening {l rest part : Bytes} : newline ∉ l → reply.octets = l ++ newline :: rest →
      part <+: l → Cut reply [] (dropReturn l) .missingBegin part part
  | record {taken : List Attribute} {before l rest part : Bytes} :
      Opened .silent taken before [] → newline ∉ l →
      reply.octets = before ++ (l ++ newline :: rest) → part <+: l →
      Cut reply taken (dropReturn l) .unexpectedLine part (before ++ part)

/-- Behind the first attributes of a reply stands the header line of another one, or of the
result. -/
theorem WellFormed.line_behind (reply : WellFormed) {taken : List Attribute}
    {before l rest : Bytes} (ho : Opened .silent taken before []) (hl : newline ∉ l)
    (h : reply.octets = before ++ (l ++ newline :: rest)) :
    dropReturn l = attributeLine ∨ dropReturn l = resultLine := by
  obtain ⟨hbegin, hbody⟩ := reply.framed
  obtain ⟨hbegin', hattributes⟩ := ho.append .silent (l ++ newline :: rest)
  rw [h] at hbegin
  obtain ⟨-, rfl⟩ := hbegin.unique hbegin'
  obtain ⟨left, -, hleft⟩ := hattributes.body hbody
  obtain ⟨text, s, hline, htext⟩ := hleft.line
  rwa [(hline.unique (.ended hl)).1] at htext

/-- A reply can be cut in the header line of each of its attributes, and in that of its result. -/
theorem WellFormed.exists_cut (reply : WellFormed) {taken left : List Attribute}
    (h : reply.attributes = taken ++ left) :
    ∃ before l rest, reply.octets = before ++ (l ++ newline :: rest) ∧
      dropReturn l = (if left.isEmpty then resultLine else attributeLine) ∧
      ∀ part, part <+: l →
        Cut reply taken (dropReturn l) .unexpectedLine part (before ++ part) := by
  obtain ⟨hbegin, hbody⟩ := reply.framed
  rw [h] at hbody
  obtain ⟨s, hattributes, hleft⟩ := hbody.split
  have hheader : ∃ s', Line .silent (if left.isEmpty then resultLine else attributeLine) s s' := by
    cases hleft with
    | result hr =>
      obtain ⟨hl, -⟩ := hr
      exact ⟨_, hl⟩
    | attr ha _ =>
      obtain ⟨hl, -, -⟩ := ha
      exact ⟨_, hl⟩
  obtain ⟨before, hoctets, hopened⟩ := (Opened.intro hbegin hattributes).strip
  obtain ⟨s', hl⟩ := hheader
  generalize htext : (if left.isEmpty then resultLine else attributeLine) = text at hl
  cases hl with
  | @ended l _ hn =>
    exact ⟨before, l, s', hoctets, rfl, fun part hp => .record hopened hn hoctets hp⟩
  | last hc _ _ => exact absurd hc (by decide)

/-- The first line of a reply is `BEGIN`. -/
theorem WellFormed.line_first (reply : WellFormed) {l rest : Bytes} (hl : newline ∉ l)
    (h : reply.octets = l ++ newline :: rest) : dropReturn l = beginLine := by
  obtain ⟨hbegin, -⟩ := reply.framed
  rw [h] at hbegin
  exact (hbegin.unique (.ended hl)).1.symm

namespace Session

variable {ω : Type}

/-! ### A session at the end of its stream -/

theorem records_of_end (sink : Sink ω) (count : Nat) (store : ω) :
    records sink count { rest := [] } store =
      broken ⟨.inSession, count⟩ .closedInRecord { rest := [] } store := by
  rw [records_eq]
  rfl

theorem run_of_end (sink : Sink ω) (store : ω) :
    run sink {} { rest := [] } store = broken {} .closedInRecord { rest := [] } store := rfl

/-- Where a record has to stand, the octets that are left of its header line are read as a line. -/
theorem records_of_part (sink : Sink ω) (count : Nat) (store : ω) {part line : Bytes}
    (hne : part ≠ []) (hn : newline ∉ part) (hline : line = attributeLine ∨ line = resultLine)
    (hp : dropReturn part <+: line) :
    records sink count { rest := part } store =
      if dropReturn part = line then
        broken ⟨.inSession, count⟩ .closedInRecord { rest := part } store
      else
        malformed ⟨.inSession, count⟩ (.unexpectedLine (dropReturn part)) { rest := [] } store := by
  have hh := (Reader.header_eq_ok_iff (r := { rest := part }) rfl).mpr
    ⟨_, _, Reader.line_of_part hne hn, rfl, rfl⟩
  rw [records_eq]
  split_ifs with htext
  · rw [htext] at hh
    rcases hline with rfl | rfl
    · rw [Header.ofLine_eq_attr_iff.mpr rfl] at hh
      rw [Reader.record, hh]
      rfl
    · rw [Header.ofLine_eq_result_iff.mpr rfl] at hh
      rw [Reader.record, hh]
      rfl
  · have hheader : line ∈ headerLines := by
      rcases hline with rfl | rfl
      all_goals decide
    rw [Header.ofLine_of_part hheader hp htext] at hh
    rw [Reader.record, hh]

/-- Where `BEGIN` has to stand, the octets that are left of it are read as a line. -/
theorem run_of_part (sink : Sink ω) (store : ω) {part : Bytes} (hne : part ≠ [])
    (hn : newline ∉ part) (hp : dropReturn part <+: beginLine) :
    run sink {} { rest := part } store =
      if dropReturn part = beginLine then
        broken ⟨.inSession, 0⟩ .closedInRecord { rest := [] } store
      else malformed {} (.missingBegin (dropReturn part)) { rest := [] } store := by
  have hline := Reader.line_of_part hne hn
  split_ifs with htext
  · rw [htext] at hline
    rw [run_of_line hline, records_of_end]
  · have hh := (Reader.header_eq_ok_iff (r := { rest := part }) rfl).mpr ⟨_, _, hline, rfl, rfl⟩
    rw [Header.ofLine_of_part (by decide) hp htext] at hh
    simp only [run, hh]
    rfl

/-! ### A session on what is left of a reply -/

/-- On what is left of a reply a session takes the attributes before the cut, and all octets. -/
theorem run_of_cut {reply : WellFormed} {taken : List Attribute} {header : Bytes}
    {wrong : Bytes → FramingError} {part stream : Bytes}
    (h : Cut reply taken header wrong part stream) (take : ω → Attribute → ω) (store : ω) :
    let cut := run (accepting take) {} { rest := stream } store
    cut.answer =
        (if part = [] ∨ dropReturn part = header then .error (faultError .closedInRecord)
        else .ok (.framing (wrong (dropReturn part)))) ∧
      cut.store = taken.foldl take store ∧ cut.reader.rest = [] := by
  cases h with
  | @opening l rest part hl hr hp =>
    have hbegin := reply.line_first hl hr
    have htext := Reader.dropReturn_mono hp
    rw [hbegin] at htext ⊢
    by_cases hne : part = []
    · subst hne
      rw [run_of_end]
      exact ⟨rfl, rfl, rfl⟩
    · rw [run_of_part _ store hne (fun hn => hl (hp.subset hn)) htext]
      by_cases hwhole : dropReturn part = beginLine
      · rw [if_pos hwhole, if_pos (.inr hwhole)]
        exact ⟨rfl, rfl, rfl⟩
      · rw [if_neg hwhole, if_neg (not_or.mpr ⟨hne, hwhole⟩)]
        exact ⟨rfl, rfl, rfl⟩
  | @record taken before l rest part ho hl hr hp =>
    have hline := reply.line_behind ho hl hr
    have htext := Reader.dropReturn_mono hp
    have hrun := run_of_opened (ho.append .closed part) (offer_accepting take store taken)
    rw [List.nil_append] at hrun
    rw [hrun]
    by_cases hne : part = []
    · subst hne
      rw [records_of_end]
      exact ⟨rfl, rfl, rfl⟩
    · rw [records_of_part _ _ _ hne (fun hn => hl (hp.subset hn)) hline htext]
      by_cases hwhole : dropReturn part = dropReturn l
      · rw [if_pos hwhole, if_pos (.inr hwhole)]
        exact ⟨rfl, rfl, rfl⟩
      · rw [if_neg hwhole, if_neg (not_or.mpr ⟨hne, hwhole⟩)]
        exact ⟨rfl, rfl, rfl⟩

/-- **What is left of a line is refused only if it is nothing or all of it.** A bare reply that is
cut off is an error exactly if nothing of it is left; otherwise what is left is taken for the
number. A framed reply that is cut inside a header line is an error exactly if nothing of that line
is left, or all of it but its end; otherwise what is left is taken for a line that does not belong
there. Either way the attributes before the line have been handed over. Besides its first line, a
reply can be cut in the header line of each of its attributes and in that of its result. -/
theorem cut_line_refused_iff (take : ω → Attribute → ω) (store : ω) :
    (∀ text cut : Bytes, newline ∉ text → cut <+: text ++ [newline] → cut ≠ text ++ [newline] →
      (Reader.bare { rest := cut } = .error .closedInRecord ↔ cut = []) ∧
      (cut ≠ [] → Reader.bare { rest := cut } =
        .ok (.completed (Prefix.value (dropReturn cut)) 0, { rest := [] }))) ∧
    (∀ (reply : WellFormed) (taken : List Attribute) (header : Bytes)
      (wrong : Bytes → FramingError) (part stream : Bytes),
      Cut reply taken header wrong part stream →
        let cut := run (accepting take) {} { rest := stream } store
        (cut.answer = .error (.io "stream closed mid-record") ↔
          part = [] ∨ dropReturn part = header) ∧
        (¬(part = [] ∨ dropReturn part = header) →
          cut.answer = .ok (.framing (wrong (dropReturn part)))) ∧
        cut.store = taken.foldl take store ∧ cut.reader.rest = []) ∧
    ∀ (reply : WellFormed) (taken left : List Attribute), reply.attributes = taken ++ left →
      ∃ before l rest, reply.octets = before ++ (l ++ newline :: rest) ∧
        dropReturn l = (if left.isEmpty then resultLine else attributeLine) ∧
        ∀ part, part <+: l →
          Cut reply taken (dropReturn l) .unexpectedLine part (before ++ part) := by
  refine ⟨fun text cut hn hp hne => ?_,
    fun reply taken header wrong part stream h => ?_, fun reply taken left => reply.exists_cut⟩
  · have hcut : newline ∉ cut := fun hmem =>
      hn (((List.prefix_concat_iff.mp hp).resolve_left hne).subset hmem)
    refine ⟨⟨fun hbare => ?_, ?_⟩, fun hpart => Reader.bare_of_part hpart hcut⟩
    · by_contra hpart
      rw [Reader.bare_of_part hpart hcut] at hbare
      simp at hbare
    · rintro rfl
      rfl
  · obtain ⟨hanswer, hstore, hrest⟩ := run_of_cut h take store
    refine ⟨⟨fun herror => ?_, fun hwhole => ?_⟩, fun hpart => ?_, hstore, hrest⟩
    · by_contra hpart
      rw [hanswer, if_neg hpart] at herror
      simp at herror
    · rw [hanswer, if_pos hwhole]
      rfl
    · rw [hanswer, if_neg hpart]

/-- A reply without attributes. -/
def smallReply : WellFormed :=
  Content.wellFormed ⟨[], ascii "7", by simp, by simp, by decide⟩

theorem opened_smallReply : Opened .silent [] (ascii "BEGIN\n") [] :=
  have hl : Line .silent beginLine (writeLine beginLine ++ []) [] :=
    line_of_write (by decide) (by decide) []
  .intro hl .nil

/-- Nothing is left of a bare reply; of a framed one, all of its second header line but its
newline. -/
theorem cut_at_line_end_refused :
    (newline ∉ ascii "12" ∧ Reader.bare { rest := [] } = .error .closedInRecord) ∧
      Cut smallReply [] resultLine .unexpectedLine (ascii "RESULT") (ascii "BEGIN\nRESULT") ∧
      (run (accepting collect) {} { rest := ascii "BEGIN\nRESULT" } []).answer =
        .error (.io "stream closed mid-record") := by
  obtain ⟨hbare, hframed, -⟩ := cut_line_refused_iff collect []
  have hcut : Cut smallReply [] resultLine .unexpectedLine (ascii "RESULT")
      (ascii "BEGIN\n" ++ ascii "RESULT") :=
    .record (l := ascii "RESULT") opened_smallReply (by decide) (by rfl) (by decide)
  refine ⟨⟨by decide, ?_⟩, hcut, ?_⟩
  · exact (hbare (ascii "12") [] (by decide) (by decide) (by decide)).1.mpr rfl
  · exact (hframed _ _ _ _ _ _ hcut).1.mpr (.inr (by decide))

/-- The first digit of a bare reply is taken for the number, and the first letters of `BEGIN` for
another line. -/
theorem cut_line_taken_for_whole :
    (newline ∉ ascii "12" ∧ ascii "1" <+: ascii "12" ++ [newline] ∧
      ascii "1" ≠ ascii "12" ++ [newline] ∧
      Reader.bare { rest := ascii "1" } = .ok (.completed (Binary64.ofNat 1) 0, { rest := [] })) ∧
    Cut smallReply [] beginLine .missingBegin (ascii "BEG") (ascii "BEG") ∧
      (run (accepting collect) {} { rest := ascii "BEG" } []).answer =
        .ok (.framing (.missingBegin (ascii "BEG"))) := by
  have hbare : Reader.bare { rest := ascii "1" } = _ :=
    Reader.bare_of_part (by decide) (by decide)
  have hvalue : Prefix.value (dropReturn (ascii "1")) = Binary64.ofNat 1 := by decide +kernel
  rw [hvalue] at hbare
  refine ⟨⟨by decide, by decide, by decide, hbare⟩, ?_, by rfl⟩
  have hoctets : smallReply.octets = ascii "BEGIN" ++ newline :: ascii "RESULT\n1\n7\n" := by rfl
  exact .opening (by decide) hoctets (by decide)

end Session

end Reply

end ImageScoring
