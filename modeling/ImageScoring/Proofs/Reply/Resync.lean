import ImageScoring.Proofs.Reply.Recovery

/-!
# Behind a malformed reply

A malformed reply leaves the next session with the note that it has to find its beginning. That
session drops lines up to a `BEGIN` and then goes on as a new session of a new reader that stands
right before that line. If there is none, it drops all that is left.
-/

namespace ImageScoring

open Reply
open Reader (dropReturn)

namespace Reply

/-- Lines, the last of which may lack its newline, and none of which is `BEGIN`. -/
inductive Beginless : Bytes → Prop where
  | intro {junk last : Bytes} : Junk junk → newline ∉ last → dropReturn last ≠ beginLine →
      Beginless (junk ++ last)

/-- A stream that is closed has no `BEGIN` line, or a first one. -/
theorem beginless_or_begins (stream : Bytes) :
    Beginless stream ∨ ∃ junk rest behind, Junk junk ∧ stream = junk ++ rest ∧
      Line .closed beginLine rest behind := by
  obtain ⟨junk, tail, hjunk, rfl, hno | ⟨l, rest, hl, htext, rfl⟩⟩ := exists_junk stream
  · by_cases htext : dropReturn tail = beginLine
    · have hne : tail ≠ [] := by
        rintro rfl
        exact absurd htext (by decide)
      exact .inr ⟨junk, tail, [], hjunk, rfl, htext ▸ .last rfl hne hno⟩
    · exact .inl (.intro hjunk hno htext)
  · exact .inr ⟨junk, _, rest, hjunk, rfl, htext ▸ .ended hl⟩

end Reply

namespace Reader

/-- Nothing is found where no line is `BEGIN`. -/
theorem seekBegin_of_beginless {stream : Bytes} (h : Beginless stream) {skip resync : Bool} :
    seekBegin { rest := stream, skipBlank := skip, resync := resync } =
      .error .closedInRecord := by
  obtain ⟨hjunk, hlast, hne⟩ := h
  next junk last =>
  have hend : ∀ {skip resync : Bool},
      seekBegin { rest := [], skipBlank := skip, resync := resync } = .error .closedInRecord := by
    intro skip resync
    rw [seekBegin_eq]
    rfl
  induction hjunk with
  | nil =>
    by_cases hempty : last = []
    · rw [hempty]
      exact hend
    · rw [seekBegin_eq, List.nil_append, line_of (.last rfl hempty hlast)]
      simp only [if_neg hne]
      exact hend
  | line hl hline _ ih =>
    rw [List.append_assoc, List.cons_append, seekBegin_eq, line_of_newline hl]
    simp only [if_neg hline]
    exact ih

end Reader

namespace Reply.Session

variable {ω ω' : Type}

/-- The run of the session behind a run: its reader has the notes that the first one left, and that
stream before it. -/
def next (before : Run ω') (sink : Sink ω) (stream : Bytes) (e : Ending) (store : ω) : Run ω :=
  run sink {} { before.reader with rest := stream, ending := e } store

/-- **Finding the beginning is as good as a new start.** Behind a session that met a malformed reply
stand lines none of which is `BEGIN`, and then a stream whose first line is `BEGIN`. The next
session goes as one of a new reader that has only that stream before it: it has the same answer,
hands the same attributes to its sink, and leaves the same reader. If none of the lines that are
left is `BEGIN`, that session takes them all, hands nothing to its sink, and fails. Every stream
that is closed is of one kind or the other. -/
theorem next_as_new {before : Run ω'} {sink' : Sink ω'} {s : Session} {r : Reader} {store' : ω'}
    {error : FramingError} (hrun : before = run sink' s r store')
    (h : before.answer = .ok (.framing error)) (sink : Sink ω) (store : ω) :
    (∀ junk rest behind e, Junk junk → Line e beginLine rest behind →
      next before sink (junk ++ rest) e store = run sink {} { rest := rest, ending := e } store) ∧
    (∀ stream, Beginless stream →
      (next before sink stream .closed store).answer = .error (.io "stream closed mid-record") ∧
      (next before sink stream .closed store).reader.rest = [] ∧
      (next before sink stream .closed store).store = store) ∧
    ∀ stream, Beginless stream ∨ ∃ junk rest behind, Junk junk ∧ stream = junk ++ rest ∧
      Line .closed beginLine rest behind := by
  have hresync : before.reader.resync = true := by
    rw [hrun] at h ⊢
    exact resync_of_run h
  refine ⟨?_, ?_, beginless_or_begins⟩
  · intro junk rest behind e hjunk hline
    have hnew : Ready rest { rest := rest, ending := e } := .fresh
    have hlost : Ready rest { before.reader with rest := junk ++ rest, ending := e } := by
      dsimp only
      rw [hresync]
      exact .lost hjunk
    rw [next, run_of_ready hlost hline, run_of_ready hnew hline]
  · intro stream hstream
    have hbroken : next before sink stream .closed store =
        broken {} .closedInRecord
          { rest := stream, skipBlank := before.reader.skipBlank, resync := false } store := by
      simp only [next, run, hresync, if_true, Reader.seekBegin_of_beginless hstream]
    rw [hbroken]
    exact ⟨rfl, rfl, rfl⟩

/-- A stray line, another one behind it, and then a reply. -/
theorem next_behind_stray_line :
    (run (accepting collect) {} { rest := ascii "X\nY\nBEGIN\nRESULT\n1\n7\n" } []).answer =
        .ok (.framing (.missingBegin (ascii "X"))) ∧
      next (run (accepting collect) {} { rest := ascii "X\nY\nBEGIN\nRESULT\n1\n7\n" } [])
          (accepting collect) (ascii "Y\n" ++ ascii "BEGIN\nRESULT\n1\n7\n") .closed [] =
        run (accepting collect) {} { rest := ascii "BEGIN\nRESULT\n1\n7\n" } [] := by
  have hstray : (run (accepting collect) {}
      { rest := ascii "X\nY\nBEGIN\nRESULT\n1\n7\n" } []).answer =
      .ok (.framing (.missingBegin (ascii "X"))) := by rfl
  have hjunk : Junk (ascii "Y" ++ newline :: []) := .line (by decide) (by decide) .nil
  have hbegin : Line .closed beginLine (writeLine beginLine ++ ascii "RESULT\n1\n7\n")
      (ascii "RESULT\n1\n7\n") :=
    line_of_write (by decide) (by decide) _
  exact ⟨hstray, (next_as_new rfl hstray (accepting collect) []).1 _ _ _ _ hjunk hbegin⟩

end Reply.Session

end ImageScoring
