import ImageScoring.Proofs.Host.Conversation

/-!
# Listening to the host

A channel takes an answer off its input exactly if the input starts with one; if it does not, the
talk with the host has failed (`string_cases`). It takes a command unless the input is at its end
(`command_cases`). Nothing is said meanwhile.
-/

namespace ImageScoring.Host

open Reply (Line Sized)

namespace Channel

/-- A channel with that input, on which that much has been said, and anything may be said. -/
def between (rest written : Bytes) : Channel :=
  ⟨{ rest := rest }, { written := written }⟩

variable {α : Type} {stream rest written : Bytes}

/-! ### Single steps -/

theorem send_between (message : Bytes) :
    (between rest written).send message = (between rest (written ++ message), .ok ()) :=
  rfl

theorem take_of_ok {step : Reader → Except ReadFault (α × Reader)} {a : α}
    (h : step { rest := stream } = .ok (a, { rest := rest })) :
    (between stream written).take step = (between rest written, .ok a) := by
  rw [take, between]
  dsimp only
  rw [h]
  rfl

theorem take_of_error {step : Reader → Except ReadFault (α × Reader)} {fault : ReadFault}
    (h : step { rest := stream } = .error fault) :
    (between stream written).take step = (between [] written, .error (.read fault)) := by
  rw [take, between]
  dsimp only
  rw [h]
  rfl

/-- The end of the input is no silence. -/
theorem toError_of_read {fault : ReadFault} (h : fault ≠ .hung) :
    (Fault.read fault).toError = .host fault.message := by
  cases fault with
  | hung => exact absurd rfl h
  | closedInRecord => rfl
  | closedInPayload received expected => rfl
  | closedAtTerminator => rfl

theorem line?_ne_hung {r : Reader} (hr : r.ending = .closed) : r.line? ≠ .error .hung := by
  unfold Reader.line?
  dsimp only
  split
  · simp
  · rw [hr]
    dsimp only
    split <;> simp

theorem line_ne_hung {r : Reader} (hr : r.ending = .closed) : r.line ≠ .error .hung := by
  unfold Reader.line
  split
  · simp
  · simp
  · next fault heq =>
    rintro ⟨⟩
    exact line?_ne_hung hr heq

theorem payload_ne_hung {r : Reader} {count : Nat} (hr : r.ending = .closed) :
    r.payload count ≠ .error .hung := by
  unfold Reader.payload Reader.faultAtEnd
  rw [hr]
  dsimp only
  split <;> simp

theorem terminator_ne_hung {r : Reader} (hr : r.ending = .closed) :
    r.terminator ≠ .error .hung := by
  unfold Reader.terminator Reader.faultAtEnd
  rw [hr]
  split <;> simp

/-! ### Answers -/

/-- The talk fails in one of these ways, and something of the input is left. -/
def Fails (written : Bytes) (outcome : Channel × Except Fault α) : Prop :=
  ∃ rest fault cause, outcome = (between rest written, .error fault) ∧ fault.toError = .host cause

theorem fails_of_read {outcome : Channel × Except Fault α} {fault : ReadFault}
    (h : outcome = (between rest written, .error (.read fault))) (hne : fault ≠ .hung) :
    Fails written outcome :=
  ⟨rest, _, _, h, toError_of_read hne⟩

/-- What follows the line of a string's length. -/
theorem stringAfter_cases {line : Bytes} (hline : line ≠ []) (stream written : Bytes) :
    (∃ content rest, Count.Spells line content.length ∧ stream = content ++ newline :: rest ∧
      (between stream written).stringAfter line = (between rest written, .ok (some content))) ∨
    Fails written ((between stream written).stringAfter line) := by
  rw [stringAfter, if_neg (by simpa using hline)]
  cases hcount : Count.ofLine? line with
  | none => exact .inr ⟨stream, _, _, rfl, rfl⟩
  | some count =>
    dsimp only
    rcases hpayload : Reader.payload count { rest := stream } with fault | ⟨content, r⟩
    · rw [take_of_error hpayload]
      exact .inr (fails_of_read rfl (by rintro rfl; exact payload_ne_hung rfl hpayload))
    · obtain ⟨rest, rfl, rfl, rfl⟩ := Reader.payload_eq_ok_iff.mp hpayload
      rw [take_of_ok hpayload]
      dsimp only
      rcases hterminator : Reader.terminator { rest := rest } with fault | ⟨ends, r⟩
      · rw [take_of_error hterminator]
        exact .inr (fails_of_read rfl (by rintro rfl; exact terminator_ne_hung rfl hterminator))
      · cases ends with
        | true =>
          obtain ⟨rest', rfl, rfl⟩ := Reader.terminator_eq_ok_iff.mp hterminator
          rw [take_of_ok hterminator]
          exact .inl ⟨content, rest', Count.ofLine?_eq_some_iff.mp hcount, rfl, rfl⟩
        | false =>
          cases rest with
          | nil => cases hterminator
          | cons b rest =>
            obtain ⟨-, rfl⟩ := Prod.mk.inj (Except.ok.inj hterminator)
            rw [take_of_ok hterminator]
            exact .inr ⟨rest, _, _, rfl, rfl⟩

theorem string_of_answer {a : Option Bytes} (h : Answer a stream rest) (written : Bytes) :
    (between stream written).string = (between rest written, .ok a) := by
  rw [string]
  cases h with
  | missing hline =>
    rw [take_of_ok (Reader.line_of hline)]
    rfl
  | @value content _ _ hsized =>
    obtain ⟨hline, hspells⟩ := hsized
    rename_i line
    have hcount := Count.ofLine?_eq_some_iff.mpr hspells
    have hne : line ≠ [] := by
      rintro rfl
      have hnone : Count.ofLine? [] = none := by decide +kernel
      rw [hnone] at hcount
      cases hcount
    have hpayload : Reader.payload content.length { rest := content ++ newline :: rest } =
        .ok (content, { rest := newline :: rest }) :=
      Reader.payload_eq_ok_iff.mpr ⟨newline :: rest, rfl, rfl, rfl⟩
    have hterminator :
        Reader.terminator { rest := newline :: rest } = .ok (true, { rest := rest }) :=
      Reader.terminator_eq_ok_iff.mpr ⟨rest, rfl, rfl⟩
    rw [take_of_ok (Reader.line_of hline)]
    dsimp only
    rw [stringAfter, if_neg (by simpa using hne), hcount]
    dsimp only
    rw [take_of_ok hpayload]
    dsimp only
    rw [take_of_ok hterminator]

/-- **An answer is taken off the input exactly if it starts with one**; else the talk has failed. -/
theorem string_cases (stream written : Bytes) :
    (∃ a rest, Answer a stream rest ∧
      (between stream written).string = (between rest written, .ok a)) ∨
    (∀ a rest, ¬Answer a stream rest) ∧ Fails written (between stream written).string := by
  have hfails : Fails written (between stream written).string →
      (∀ a rest, ¬Answer a stream rest) ∧ Fails written (between stream written).string := by
    refine fun h => ⟨fun a rest hanswer => ?_, h⟩
    obtain ⟨rest', fault, cause, hstring, -⟩ := h
    rw [string_of_answer hanswer] at hstring
    cases (Prod.mk.inj hstring).2
  rcases hread : Reader.line { rest := stream } with fault | ⟨line, r⟩
  · refine .inr (hfails ?_)
    rw [string, take_of_error hread]
    exact fails_of_read rfl (by rintro rfl; exact line_ne_hung rfl hread)
  · obtain ⟨s, hline, rfl⟩ := Reader.line_eq_ok_iff.mp hread
    by_cases hempty : line = []
    · subst hempty
      exact .inl ⟨none, s, .missing hline, string_of_answer (.missing hline) written⟩
    · have hstring : (between stream written).string = (between s written).stringAfter line := by
        rw [string, take_of_ok hread]
      rcases stringAfter_cases hempty s written with ⟨content, rest, hspells, rfl, -⟩ | hfail
      · have hanswer : Answer (some content) stream rest := .value (.intro hline hspells)
        exact .inl ⟨some content, rest, hanswer, string_of_answer hanswer written⟩
      · exact .inr (hfails (hstring ▸ hfail))

/-! ### Commands -/

theorem line?_cases (stream written : Bytes) :
    (stream = [] ∧ (between stream written).line? = (between [] written, .ok none)) ∨
    ∃ line rest, Line .closed line stream rest ∧
      (between stream written).line? = (between rest written, .ok (some line)) := by
  rw [line?]
  by_cases hm : newline ∈ stream
  · obtain ⟨l, rest, rfl, hl⟩ := List.eq_append_cons_of_mem hm
    have hread := Reader.line?_of_eq (r := { rest := l ++ newline :: rest }) hl rfl
    refine .inr ⟨_, rest, .ended hl, take_of_ok ?_⟩
    rw [hread]
  · have hread := Reader.line?_of_not_mem (r := { rest := stream }) hm
    by_cases hempty : stream = []
    · subst hempty
      exact .inl ⟨rfl, take_of_ok (by rw [hread]; rfl)⟩
    · refine .inr ⟨_, [], .last rfl hempty hm, take_of_ok ?_⟩
      rw [hread]
      simp [hempty]

/-- A command is taken off the input, unless that is at its end. -/
theorem command_cases (stream written : Bytes) :
    (stream = [] ∧ (between stream written).command = (between [] written, .ok none)) ∨
    ∃ text rest, Says (.ofText text) stream rest ∧
      (between stream written).command = (between rest written, .ok (some text)) := by
  rcases line?_cases stream written with ⟨hempty, hline⟩ | ⟨line, rest, hline, hread⟩
  · refine .inl ⟨hempty, ?_⟩
    rw [command, hline]
    rfl
  · refine .inr ⟨_, rest, .intro hline, ?_⟩
    rw [command, hread]
    rfl

/-! ### The start-up message -/

/-- Whatever came of it, nothing has been said. -/
def Quiet (written : Bytes) (outcome : Channel × Except Fault α) : Prop :=
  ∃ rest, outcome.1 = between rest written

theorem Quiet.eq {outcome : Channel × Except Fault α} (h : Quiet written outcome) :
    ∃ rest answer, outcome = (between rest written, answer) := by
  obtain ⟨rest, hrest⟩ := h
  exact ⟨rest, outcome.2, Prod.ext hrest rfl⟩

theorem Fails.quiet {outcome : Channel × Except Fault α} (h : Fails written outcome) :
    Quiet written outcome := by
  obtain ⟨rest, fault, cause, rfl, -⟩ := h
  exact ⟨rest, rfl⟩

theorem stringAfter_quiet (line stream written : Bytes) :
    Quiet written ((between stream written).stringAfter line) := by
  by_cases hline : line = []
  · subst hline
    exact ⟨stream, rfl⟩
  · rcases stringAfter_cases hline stream written with ⟨content, rest, -, -, h⟩ | h
    · exact ⟨rest, by rw [h]⟩
    · exact h.quiet

theorem string_quiet (stream written : Bytes) : Quiet written (between stream written).string := by
  rcases string_cases stream written with ⟨a, rest, -, h⟩ | ⟨-, h⟩
  · exact ⟨rest, by rw [h]⟩
  · exact h.quiet

theorem arguments_quiet (acc : List String) (count : Nat) (stream written : Bytes) :
    Quiet written ((between stream written).arguments acc count) := by
  induction count generalizing acc stream with
  | zero => exact ⟨stream, rfl⟩
  | succ count ih =>
    obtain ⟨rest, answer, hstring⟩ := (string_quiet stream written).eq
    rw [arguments, hstring]
    rcases answer with fault | _ | argument
    · exact ⟨rest, rfl⟩
    · exact ⟨rest, rfl⟩
    · dsimp only
      split
      · exact ⟨rest, rfl⟩
      · exact ih _ rest

theorem line_quiet (stream written : Bytes) :
    Quiet written ((between stream written).take Reader.line) := by
  rcases hread : Reader.line { rest := stream } with fault | ⟨line, r⟩
  · exact ⟨[], by rw [take_of_error hread]⟩
  · obtain ⟨rest, -, rfl⟩ := Reader.line_eq_ok_iff.mp hread
    exact ⟨rest, by rw [take_of_ok hread]⟩

theorem startupAfter_quiet (filterName : String) (stream written : Bytes) :
    Quiet written ((between stream written).startupAfter filterName) := by
  obtain ⟨rest, answer, hline⟩ := (line_quiet stream written).eq
  rw [startupAfter, hline]
  rcases answer with fault | line
  · exact ⟨rest, rfl⟩
  dsimp only
  split
  · exact ⟨rest, rfl⟩
  next count _ =>
  obtain ⟨rest', answer, harguments⟩ := (arguments_quiet [] count rest written).eq
  rw [harguments]
  rcases answer with fault | args
  · exact ⟨rest', rfl⟩
  dsimp only
  obtain ⟨rest'', answer, hstring⟩ := (string_quiet rest' written).eq
  rw [hstring]
  rcases answer with fault | blob <;> exact ⟨rest'', rfl⟩

/-- Reading the start-up message says nothing. -/
theorem startup_quiet (stream written : Bytes) :
    Quiet written (between stream written).startup := by
  rw [startup]
  rcases line?_cases stream written with ⟨-, hline⟩ | ⟨line, rest, -, hline⟩
  · rw [hline]
    exact ⟨[], rfl⟩
  rw [hline]
  dsimp only
  obtain ⟨rest', answer, hstring⟩ := (stringAfter_quiet line rest written).eq
  rw [hstring]
  rcases answer with fault | _ | filterName
  · exact ⟨rest', rfl⟩
  · exact ⟨rest', rfl⟩
  dsimp only
  split
  · exact ⟨rest', rfl⟩
  next name _ =>
  obtain ⟨rest'', answer, hstartup⟩ := (startupAfter_quiet name rest' written).eq
  rw [hstartup]
  rcases answer with fault | startup <;> exact ⟨rest'', rfl⟩

end Channel

end ImageScoring.Host
