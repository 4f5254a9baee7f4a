import ImageScoring.Proofs.Host.Listening
import ImageScoring.Proofs.Reply.Encoding

/-!
# Values and the start-up message

`Opening` says which inputs start with a start-up message, whatever way its lengths and its count
are spelled. A start-up message is read exactly if the input starts with one
(`startup_eq_ok_iff`); what is written is among them, and so are the values of any list that is
sent (`startup_and_values_read_back`).
-/

namespace ImageScoring.Host

open Reply (Line Sized)

variable {stream rest written : Bytes}

/-! ### Written values -/

theorem answer_of_string {content : Bytes} (h : content.length < Count.lengthLimit)
    (rest : Bytes) : Answer (some content) (string content ++ rest) rest := by
  have hsized : Sized .closed content (Reply.writeSized content ++ newline :: rest)
      (newline :: rest) :=
    Reply.sized_of_write h _
  have heq : string content ++ rest = Reply.writeSized content ++ newline :: rest := by
    simp [string, line, Reply.writeSized, Reply.writeLine]
  rw [heq]
  exact .value hsized

theorem answer_of_value {a : Option Bytes} (h : ∀ content ∈ a, content.length < Count.lengthLimit)
    (rest : Bytes) : Answer a (value a ++ rest) rest := by
  cases a with
  | none =>
    have hline : Line .closed [] (Reply.writeLine [] ++ rest) rest :=
      Reply.line_of_write (by simp) (by simp) rest
    exact .missing hline
  | some content => exact answer_of_string (h content rfl) rest

theorem answers_of_values {values : List (Option Bytes)}
    (h : ∀ a ∈ values, ∀ content ∈ a, content.length < Count.lengthLimit) (rest : Bytes) :
    Answers values (values.flatMap value ++ rest) rest := by
  induction values with
  | nil => exact .nil
  | cons a values ih =>
    rw [List.flatMap_cons, List.append_assoc]
    exact .cons (answer_of_value (h a List.mem_cons_self) _)
      (ih fun b hb => h b (List.mem_cons_of_mem a hb))

/-! ### The start-up message in the input -/

/-- `Opening m stream rest`: the input starts with this start-up message. Its lengths and its count
may be spelled in any way, and no blob is an empty one. -/
inductive Opening : Startup → Bytes → Bytes → Prop where
  | intro {m : Startup} {blob : Option Bytes} {line stream s₁ s₂ s₃ rest : Bytes} :
      Answer (some (Utf8.ofText m.filterName)) stream s₁ →
      Line .closed line s₁ s₂ → Count.Spells line m.args.length →
      Answers (m.args.map fun arg => some (Utf8.ofText arg)) s₂ s₃ →
      Answer blob s₃ rest → m.blob = blob.getD [] → Opening m stream rest

/-- Every part of the message is short enough for its length to be told. -/
structure Startup.Fits (m : Startup) : Prop where
  filterName : (Utf8.ofText m.filterName).length < Count.lengthLimit
  args : m.args.length < Count.lengthLimit
  arg : ∀ arg ∈ m.args, (Utf8.ofText arg).length < Count.lengthLimit
  blob : m.blob.length < Count.lengthLimit

/-- A message that is written is a start-up message. -/
theorem opening_of_encode {m : Startup} (h : m.Fits) (rest : Bytes) :
    Opening m (m.encode ++ rest) rest := by
  have hargs : Answers (m.args.map fun arg => some (Utf8.ofText arg))
      ((m.args.flatMap fun arg => string (Utf8.ofText arg)) ++ (string m.blob ++ rest))
      (string m.blob ++ rest) := by
    have hfit : ∀ a ∈ m.args.map fun arg => some (Utf8.ofText arg), ∀ content ∈ a,
        content.length < Count.lengthLimit := by
      intro a ha content hcontent
      obtain ⟨arg, harg, rfl⟩ := List.mem_map.mp ha
      obtain rfl := Option.some.inj hcontent
      exact h.arg arg harg
    have hvalues := answers_of_values hfit (string m.blob ++ rest)
    rw [List.flatMap_map] at hvalues
    exact hvalues
  simp only [Startup.encode, List.append_assoc]
  exact .intro (answer_of_string h.filterName _) (Reply.line_of_count _ _)
    (Count.spells_line h.args) hargs (answer_of_string h.blob rest) rfl

namespace Channel

/-! ### Reading values -/

/-- These values are taken off a channel, one after the other. -/
inductive Takes : List (Option Bytes) → Channel → Channel → Prop where
  | nil {c : Channel} : Takes [] c c
  | cons {a : Option Bytes} {values : List (Option Bytes)} {c c₁ c₂ : Channel} :
      c.string = (c₁, .ok a) → Takes values c₁ c₂ → Takes (a :: values) c c₂

theorem takes_of_answers {values : List (Option Bytes)} (h : Answers values stream rest)
    (written : Bytes) : Takes values (between stream written) (between rest written) := by
  induction h with
  | nil => exact .nil
  | cons ha _ ih => exact .cons (string_of_answer ha written) ih

/-- The channel after these values were sent. -/
def sendValues (values : List (Option Bytes)) (c : Channel) : Channel :=
  values.foldl (fun c a => (c.send (value a)).1) c

theorem sendValues_between (values : List (Option Bytes)) (rest written : Bytes) :
    (between rest written).sendValues values = between rest (written ++ values.flatMap value) := by
  induction values generalizing written with
  | nil => simp [sendValues]
  | cons a values ih =>
    rw [sendValues, List.foldl_cons, send_between, List.flatMap_cons, ← List.append_assoc]
    exact ih (written ++ value a)

theorem string_eq_ok_iff {c : Channel} {a : Option Bytes} :
    (between stream written).string = (c, .ok a) ↔
      ∃ rest, Answer a stream rest ∧ c = between rest written := by
  constructor
  · intro h
    rcases string_cases stream written with ⟨a', rest, hanswer, hstring⟩ | ⟨-, hfails⟩
    · rw [hstring] at h
      obtain ⟨rfl, ha⟩ := Prod.mk.inj h
      obtain rfl := Except.ok.inj ha
      exact ⟨rest, hanswer, rfl⟩
    · obtain ⟨rest, fault, cause, hstring, -⟩ := hfails
      rw [hstring] at h
      cases (Prod.mk.inj h).2
  · rintro ⟨rest, hanswer, rfl⟩
    exact string_of_answer hanswer written

/-! ### Reading the start-up message -/

theorem text_eq_ok_iff {what : String} {content : Bytes} {t : String} :
    text what content = .ok t ↔ content = Utf8.ofText t := by
  have hdecode : ∀ {cs : List Char}, Utf8.decode? content = .ok cs ↔ content = Utf8.encode cs :=
    Utf8.decode?_eq_ok_iff
  rw [text, Utf8.toText?, Utf8.ofText]
  cases hcs : Utf8.decode? content with
  | ok cs =>
    rw [hdecode.mp hcs]
    constructor
    · intro h
      obtain rfl := Except.ok.inj h
      rw [String.toList_ofList]
    · intro h
      have hchars : cs = t.toList := by
        have hleft := Utf8.decode?_eq_ok_iff.mpr (rfl : Utf8.encode cs = Utf8.encode cs)
        rw [Utf8.decode?_eq_ok_iff.mpr h] at hleft
        exact (Except.ok.inj hleft).symm
      simp [Except.map, hchars]
  | error fault =>
    constructor
    · rintro ⟨⟩
    · intro h
      rw [hdecode.mpr h] at hcs
      cases hcs

/-- Arguments are read exactly if the input starts with that many of them. -/
theorem arguments_eq_ok_iff {acc args : List String} {count : Nat} {c : Channel} :
    (between stream written).arguments acc count = (c, .ok args) ↔
      ∃ more rest, args = acc.reverse ++ more ∧ more.length = count ∧
        Answers (more.map fun arg => some (Utf8.ofText arg)) stream rest ∧
        c = between rest written := by
  induction count generalizing acc stream with
  | zero =>
    rw [arguments]
    constructor
    · intro h
      obtain ⟨rfl, hargs⟩ := Prod.mk.inj h
      obtain rfl := Except.ok.inj hargs
      exact ⟨[], stream, by simp, rfl, .nil, rfl⟩
    · rintro ⟨more, rest, rfl, hlength, hanswers, rfl⟩
      obtain rfl := List.length_eq_zero_iff.mp hlength
      cases hanswers
      simp
  | succ count ih =>
    rw [arguments]
    constructor
    · intro h
      split at h
      · cases (Prod.mk.inj h).2
      · cases (Prod.mk.inj h).2
      · next c₁ content hstring =>
        obtain ⟨s, hanswer, rfl⟩ := string_eq_ok_iff.mp hstring
        split at h
        · cases (Prod.mk.inj h).2
        · next argument htext =>
          obtain rfl := text_eq_ok_iff.mp htext
          obtain ⟨more, rest, rfl, hlength, hanswers, rfl⟩ := ih.mp h
          exact ⟨argument :: more, rest, by simp, by simp [hlength], .cons hanswer hanswers, rfl⟩
    · rintro ⟨more, rest, rfl, hlength, hanswers, rfl⟩
      cases more with
      | nil => cases hlength
      | cons argument more =>
        cases hanswers with
        | cons hanswer hanswers =>
          rw [string_of_answer hanswer written]
          dsimp only
          rw [text_eq_ok_iff.mpr rfl]
          exact ih.mpr ⟨more, rest, by simp, Nat.succ.inj hlength, hanswers, rfl⟩

theorem startupAfter_eq_ok_iff {filterName : String} {m : Startup} {c : Channel} :
    (between stream written).startupAfter filterName = (c, .ok m) ↔
      m.filterName = filterName ∧ ∃ line s₁ s₂ blob rest, Line .closed line stream s₁ ∧
        Count.Spells line m.args.length ∧
        Answers (m.args.map fun arg => some (Utf8.ofText arg)) s₁ s₂ ∧ Answer blob s₂ rest ∧
        m.blob = blob.getD [] ∧ c = between rest written := by
  rw [startupAfter]
  constructor
  · intro h
    rcases hread : Reader.line { rest := stream } with fault | ⟨line, r⟩
    · rw [take_of_error hread] at h
      cases (Prod.mk.inj h).2
    · obtain ⟨s₁, hline, rfl⟩ := Reader.line_eq_ok_iff.mp hread
      rw [take_of_ok hread] at h
      dsimp only at h
      split at h
      · cases (Prod.mk.inj h).2
      · next count hcount =>
        split at h
        · cases (Prod.mk.inj h).2
        · next c₁ args harguments =>
          obtain ⟨more, s₂, hargs, rfl, hanswers, rfl⟩ := arguments_eq_ok_iff.mp harguments
          rw [List.reverse_nil, List.nil_append] at hargs
          subst hargs
          split at h
          · cases (Prod.mk.inj h).2
          · next c₂ blob hstring =>
            obtain ⟨rest, hanswer, rfl⟩ := string_eq_ok_iff.mp hstring
            obtain ⟨rfl, hm⟩ := Prod.mk.inj h
            obtain rfl := Except.ok.inj hm
            exact ⟨rfl, line, s₁, s₂, blob, rest, hline, Count.ofLine?_eq_some_iff.mp hcount,
              hanswers, hanswer, rfl, rfl⟩
  · rintro ⟨rfl, line, s₁, s₂, blob, rest, hline, hspells, hanswers, hanswer, hblob, rfl⟩
    have harguments : (between s₁ written).arguments [] m.args.length =
        (between s₂ written, .ok m.args) :=
      arguments_eq_ok_iff.mpr ⟨m.args, s₂, rfl, rfl, hanswers, rfl⟩
    rw [take_of_ok (Reader.line_of (r := { rest := stream }) hline)]
    dsimp only
    rw [Count.ofLine?_eq_some_iff.mpr hspells]
    dsimp only
    rw [harguments]
    dsimp only
    rw [string_of_answer hanswer written]
    dsimp only
    rw [← hblob]

/-- The start-up message begins with a string, unless the input is at its end. -/
theorem startup_eq_of_ne_nil (hne : stream ≠ []) :
    (between stream written).startup =
      match (between stream written).string with
      | (c, .error fault) => (c, .error fault)
      | (c, .ok none) => (c, .error .missingName)
      | (c, .ok (some content)) =>
        match text "filter name" content with
        | .error fault => (c, .error fault)
        | .ok name =>
          match c.startupAfter name with
          | (c, .ok startup) => (c, .ok (some startup))
          | (c, .error fault) => (c, .error fault) := by
  rcases line?_cases stream written with ⟨hempty, -⟩ | ⟨line, rest, hline, hread⟩
  · exact absurd hempty hne
  · have hstring : (between stream written).string = (between rest written).stringAfter line := by
      rw [string, take_of_ok (Reader.line_of (r := { rest := stream }) hline)]
    rewrite [startup, hread, hstring]
    rfl

/-- **A start-up message is read exactly if the input starts with one**, and that much of the input
is taken. -/
theorem startup_eq_ok_iff {m : Startup} {c : Channel} :
    (between stream written).startup = (c, .ok (some m)) ↔
      ∃ rest, Opening m stream rest ∧ c = between rest written := by
  by_cases hne : stream = []
  · subst hne
    constructor
    · rintro ⟨⟩
    · rintro ⟨rest, ⟨hname, -, -, -, -, -⟩, -⟩
      have hnone := string_of_answer hname written
      cases (Prod.mk.inj hnone).2
  · rw [startup_eq_of_ne_nil hne]
    constructor
    · intro h
      split at h
      · cases (Prod.mk.inj h).2
      · cases (Prod.mk.inj h).2
      · next c₁ content hstring =>
        obtain ⟨s, hname, rfl⟩ := string_eq_ok_iff.mp hstring
        split at h
        · cases (Prod.mk.inj h).2
        · next name htext =>
          obtain rfl := text_eq_ok_iff.mp htext
          split at h
          · next c₂ startup hafter =>
            obtain ⟨rfl, hm⟩ := Prod.mk.inj h
            obtain rfl := Option.some.inj (Except.ok.inj hm)
            obtain ⟨rfl, line, s₁, s₂, blob, rest, hline, hspells, hargs, hblob, hm, rfl⟩ :=
              startupAfter_eq_ok_iff.mp hafter
            exact ⟨rest, .intro hname hline hspells hargs hblob hm, rfl⟩
          · cases (Prod.mk.inj h).2
    · rintro ⟨rest, ⟨hname, hline, hspells, hargs, hblob, hm⟩, rfl⟩
      rw [string_of_answer hname written]
      dsimp only
      rw [text_eq_ok_iff.mpr rfl]
      dsimp only
      rw [startupAfter_eq_ok_iff.mpr
        ⟨rfl, _, _, _, _, rest, hline, hspells, hargs, hblob, hm, rfl⟩]

end Channel

open Channel in
/-- **What is written is read back.** A start-up message that is followed by anything is read as it
was written, and exactly its octets are taken; so are the values of any list that was sent, missing
ones and empty ones told apart. And whatever input a start-up message is read from has it at its
beginning, if in another spelling of its lengths and its count or without its empty blob. -/
theorem startup_and_values_read_back :
    (∀ (m : Startup) (following written : Bytes), m.Fits →
      (between (m.encode ++ following) written).startup = (between following written, .ok (some m)))
    ∧ (∀ (values : List (Option Bytes)) (following written : Bytes),
      (∀ a ∈ values, ∀ content ∈ a, content.length < Count.lengthLimit) →
      Takes values
        (between (((between [] []).sendValues values).output.written ++ following) written)
        (between following written))
    ∧ ∀ (stream written : Bytes) (c : Channel) (m : Startup),
      (between stream written).startup = (c, .ok (some m)) →
        ∃ rest, Opening m stream rest ∧ c = between rest written := by
  refine ⟨fun m following written hfits => ?_, fun values following written hfits => ?_,
    fun stream written c m h => startup_eq_ok_iff.mp h⟩
  · exact startup_eq_ok_iff.mpr ⟨following, opening_of_encode hfits following, rfl⟩
  · rw [sendValues_between]
    exact takes_of_answers (answers_of_values hfits following) written

/-- A message with an empty argument and one that looks like a string. -/
def trickyStartup : Startup where
  filterName := "imagej"
  args := ["", "5\nhello\n"]
  blob := [newline]

/-- A message whose lengths and count are spelled in other ways, without a blob. -/
def looseOpening : Bytes :=
  ascii "\t+06 \r\nimagej\n001\r\n00\n\n\r"

open Channel in
/-- The tricky message, some values, and a message in a loose spelling. -/
theorem tricky_startup_read_back :
    trickyStartup.Fits ∧
    (between (trickyStartup.encode ++ ascii "7\n") []).startup =
      (between (ascii "7\n") [], .ok (some trickyStartup)) ∧
    Takes [none, some [], some (ascii "0\n\n")]
      (between (((between [] []).sendValues [none, some [], some (ascii "0\n\n")]).output.written ++
        [newline]) []) (between [newline] []) ∧
    (between looseOpening []).startup = (between [] [], .ok (some ⟨"imagej", [""], []⟩)) ∧
    Opening ⟨"imagej", [""], []⟩ looseOpening [] := by
  have hfits : trickyStartup.Fits :=
    ⟨by decide +kernel, by decide, by decide +kernel, by decide⟩
  have hvalues : ∀ a ∈ [none, some [], some (ascii "0\n\n")], ∀ content ∈ a,
      content.length < Count.lengthLimit := by
    decide +kernel
  have hloose : (between looseOpening []).startup =
      (between [] [], .ok (some ⟨"imagej", [""], []⟩)) := by
    decide +kernel
  obtain ⟨hread, htaken, hopening⟩ := startup_and_values_read_back
  obtain ⟨rest, hstarts, hrest⟩ := hopening looseOpening [] _ _ hloose
  obtain rfl : rest = [] := (congrArg (fun c => c.reader.rest) hrest).symm
  exact ⟨hfits, hread trickyStartup (ascii "7\n") [] hfits, htaken _ [newline] [] hvalues, hloose,
    hstarts⟩

end ImageScoring.Host
