import ImageScoring.CommandLine
import ImageScoring.Proofs.Settings.Environment

/-!
# The variable for no colours

Whether messages are coloured makes no difference to anything but the messages. The variable that
asks for no colours may stop the program before it does anything, though: it is read as a truth
value, and a value that is none is a mistake in use (`run_of_unreadable`). So the program does the
same under two values of it exactly if it can read both or neither, if the arguments keep it from
looking, or if there is nothing that it would have done (`unaffected_iff`).
-/

namespace ImageScoring.CommandLine

open Environment

variable {σ : Type} {env env' : Environment} {programs : Programs σ} {args : List String}
  {input : Bytes} {s : System}

/-- Two runs differ in their messages at most. -/
structure Report.Alike (r r' : Report σ) : Prop where
  status : r.status = r'.status
  output : r.output = r'.output
  system : r.system = r'.system
  filter : r.filter = r'.filter

/-- The variable for no colours holds neither `true` nor `false`. -/
def Unreadable (env : Environment) : Prop :=
  ∃ value, env.bytes? noColorVariable = some value ∧ value ≠ ascii "true" ∧ value ≠ ascii "false"

/-- The arguments ask to serve a host, and for no colours neither way. -/
def AsksToServe (args : List String) : Prop :=
  readOptions false false args = some (.run true false)

/-! ### What is done with the variable -/

/-- Settings of the log are asked for by other names. -/
theorem override_logging (h : env.AgreeBut noColorVariable env') (l : Logging) :
    l.override env = l.override env' := by
  have hfilter : l.filterUnder env = l.filterUnder env' := by
    rw [Logging.filterUnder, Logging.filterUnder, h.text? (by decide), h.text? (by decide)]
  have hlevel : l.levelUnder env = l.levelUnder env' := by
    rw [Logging.levelUnder, Logging.levelUnder, hfilter, h.text? (by decide)]
  rw [Logging.override, Logging.override, hfilter, hlevel, h.text? (by decide),
    h.parsed? (by decide)]

/-- So are the settings of a filter. -/
theorem override_config (h : env.AgreeBut noColorVariable env') (c : Config) :
    c.override env = c.override env' := by
  simp only [Config.override, h.text? (by decide : "IJEXEC_HOME" ≠ noColorVariable),
    h.text? (by decide : "IJEXEC_WORKER_ARCHIVE" ≠ noColorVariable),
    h.text? (by decide : "IJEXEC_JAVA" ≠ noColorVariable),
    h.text? (by decide : "IJEXEC_XVFB" ≠ noColorVariable),
    h.number? (by decide : "IJEXEC_MAX_DISPLAYS" ≠ noColorVariable),
    h.number? (by decide : "IJEXEC_DISPLAY" ≠ noColorVariable),
    h.parsed? (by decide : "IJEXEC_PROTOCOL" ≠ noColorVariable),
    h.parsed? (by decide : "IJEXEC_IMAGE_SOURCE" ≠ noColorVariable),
    h.parsed? (by decide : "IJEXEC_ON_FRAMING_ERROR" ≠ noColorVariable)]

/-- Serving a host is the same, however messages look. -/
theorem serve_alike (h : env.AgreeBut noColorVariable env') (colored colored' : Bool)
    (warning : String) :
    (serve programs env colored warning input s).Alike
      (serve programs env' colored' warning input s) := by
  have hconfig : (Config.default env s.home).override env =
      (Config.default env' s.home).override env' := by
    rw [Config.default_congr h (by decide) (by decide) s.home, override_config h]
  rw [serve, serve, hconfig]
  exact ⟨rfl, rfl, rfl, rfl⟩

theorem runFilter_alike (h : env.AgreeBut noColorVariable env') (programs : Programs σ)
    (colored colored' : Bool) (input : Bytes) (s : System) :
    (runFilter programs env colored input s).Alike
      (runFilter programs env' colored' input s) := by
  rw [runFilter, runFilter, override_logging h]
  split
  · exact ⟨rfl, rfl, rfl, rfl⟩
  · split
    · exact serve_alike h colored colored' _
    · split
      · exact serve_alike h colored colored' _
      · exact ⟨rfl, rfl, rfl, rfl⟩

/-! ### What is made of the arguments -/

theorem truth?_eq_none_iff {value : Bytes} :
    truth? value = none ↔ value ≠ ascii "true" ∧ value ≠ ascii "false" := by
  rw [truth?]
  split
  · next htrue => simp [htrue]
  · next htrue =>
    split
    · next hfalse => simp [hfalse]
    · next hfalse => simp [htrue, hfalse]

/-- A value that cannot be read is a mistake in use, whatever the host has to say. -/
theorem run_of_unreadable (hargs : AsksToServe args) (h : Unreadable env) :
    run programs args env input s = { status := 1, errors := usage, system := s } := by
  obtain ⟨value, hvalue, hno⟩ := h
  have hnone : options? env args = none := by
    rw [options?, hargs]
    simp [hvalue, truth?_eq_none_iff.mpr hno]
  rw [run, hnone]

/-- Otherwise the host is served. -/
theorem run_of_readable (hargs : AsksToServe args) (h : ¬Unreadable env) (programs : Programs σ)
    (input : Bytes) (s : System) :
    ∃ colored, run programs args env input s = runFilter programs env colored input s := by
  have hsome : ∃ noColor, options? env args = some (.run true noColor) := by
    rw [options?, hargs]
    dsimp only
    cases hvalue : env.bytes? noColorVariable with
    | none => exact ⟨false, rfl⟩
    | some value =>
      cases htruth : truth? value with
      | none => exact absurd ⟨value, hvalue, truth?_eq_none_iff.mp htruth⟩ h
      | some noColor => exact ⟨noColor, by simp [htruth]⟩
  obtain ⟨noColor, hoptions⟩ := hsome
  exact ⟨colored env noColor, by rw [run, hoptions]⟩

/-- Having asked for no colours is not taken back. -/
theorem noColor_of_readOptions {filter asked noColor : Bool}
    (h : readOptions filter true args = some (.run asked noColor)) : noColor = true := by
  induction args generalizing filter with
  | nil =>
    cases h
    rfl
  | cons arg args ih =>
    rw [readOptions] at h
    split at h
    · cases h
    · split at h
      · split at h
        · cases h
        · exact ih h
      · split at h
        · cases h
        · split at h
          · split at h
            · cases h
              rfl
            · cases h
          · cases h

/-- Arguments that ask for colours neither way may ask for none besides. -/
theorem readOptions_noColor {filter asked : Bool}
    (h : readOptions filter false args = some (.run asked false)) :
    readOptions filter true args = some (.run asked true) := by
  induction args generalizing filter with
  | nil =>
    cases h
    rfl
  | cons arg args ih =>
    rw [readOptions] at h ⊢
    by_cases hversion : asksVersion arg = true
    · rw [if_pos hversion] at h
      cases h
    rw [if_neg hversion] at h ⊢
    by_cases hfilter : arg = "--filter"
    · rw [if_pos hfilter] at h ⊢
      cases filter with
      | true => cases h
      | false => exact ih h
    rw [if_neg hfilter] at h ⊢
    by_cases hcolor : arg = "--no-color"
    · rw [if_pos hcolor] at h
      cases noColor_of_readOptions h
    rw [if_neg hcolor] at h ⊢
    by_cases hend : arg = "--"
    · rw [if_pos hend] at h ⊢
      cases args with
      | nil =>
        cases h
        rfl
      | cons next args => cases h
    · rw [if_neg hend] at h
      cases h

/-- Where the arguments ask for no colours besides, the host is served under every value. -/
theorem run_noColor (hargs : AsksToServe args) (env : Environment) :
    run programs ("--no-color" :: args) env input s =
      runFilter programs env (colored env true) input s := by
  have hread : readOptions false false ("--no-color" :: args) = some (.run true true) := by
    rw [readOptions, if_neg (by decide), if_neg (by decide), if_pos rfl]
    exact readOptions_noColor hargs
  rw [run, options?, hread]

/-- Not to ask for anything is a mistake in use under every value. -/
theorem run_of_nothing_asked (hargs : readOptions false false args = some (.run false false)) :
    run programs args env input s = { status := 1, errors := usage, system := s } := by
  rw [run, options?, hargs]
  dsimp only
  cases env.bytes? noColorVariable with
  | none => rfl
  | some value =>
    dsimp only
    cases truth? value <;> rfl

/-- Arguments that do not ask to serve a host, or that ask for no colours, decide alone. -/
theorem run_alike_of_not_asked (h : env.AgreeBut noColorVariable env')
    (hargs : ¬AsksToServe args) :
    (run programs args env input s).Alike (run programs args env' input s) := by
  rcases hread : readOptions false false args with _ | _ | ⟨_ | _, _ | _⟩
  · simp only [run, options?, hread]
    exact ⟨rfl, rfl, rfl, rfl⟩
  · simp only [run, options?, hread]
    exact ⟨rfl, rfl, rfl, rfl⟩
  · rw [run_of_nothing_asked hread, run_of_nothing_asked hread]
    exact ⟨rfl, rfl, rfl, rfl⟩
  · simp only [run, options?, hread]
    exact ⟨rfl, rfl, rfl, rfl⟩
  · exact absurd hread hargs
  · simp only [run, options?, hread]
    exact runFilter_alike h programs _ _ input s

/-! ### Two values of the variable -/

theorem run_alike (h : env.AgreeBut noColorVariable env')
    (hread : AsksToServe args → (Unreadable env ↔ Unreadable env')) (programs : Programs σ)
    (input : Bytes) (s : System) :
    (run programs args env input s).Alike (run programs args env' input s) := by
  by_cases hargs : AsksToServe args
  · by_cases hno : Unreadable env
    · rw [run_of_unreadable hargs hno, run_of_unreadable hargs ((hread hargs).mp hno)]
      exact ⟨rfl, rfl, rfl, rfl⟩
    · obtain ⟨colored, hrun⟩ := run_of_readable hargs hno programs input s
      obtain ⟨colored', hrun'⟩ := run_of_readable hargs (hno ∘ (hread hargs).mpr) programs input s
      rw [hrun, hrun']
      exact runFilter_alike h programs colored colored' input s
  · exact run_alike_of_not_asked h hargs

/-- A value that cannot be read differs from one that can exactly if there is something to show for
serving the host, which is served where the arguments ask for no colours besides. -/
theorem run_unreadable_iff (h : env.AgreeBut noColorVariable env') (hargs : AsksToServe args)
    (hno : Unreadable env) (hyes : ¬Unreadable env') (programs : Programs σ) (input : Bytes)
    (s : System) :
    ((run programs args env input s).status = (run programs args env' input s).status ∧
      (run programs args env input s).output = (run programs args env' input s).output) ↔
    (run programs ("--no-color" :: args) env input s).status = 1 ∧
      (run programs ("--no-color" :: args) env input s).output = [] := by
  obtain ⟨colored', hrun'⟩ := run_of_readable hargs hyes programs input s
  have halike := runFilter_alike h programs (colored env true) colored' input s
  rw [run_of_unreadable hargs hno, run_noColor hargs, hrun', halike.status, halike.output]
  exact and_congr eq_comm eq_comm

/-- **The variable for no colours makes no difference** to anything but the messages if the
arguments decide alone, or if both values can be read, or neither. Otherwise it keeps the program
from serving its host, which shows unless serving it fails without a word. -/
theorem unaffected_iff (h : env.AgreeBut noColorVariable env') (programs : Programs σ)
    (args : List String) (input : Bytes) (s : System) :
    ((AsksToServe args → (Unreadable env ↔ Unreadable env')) →
      (run programs args env input s).Alike (run programs args env' input s)) ∧
    (((run programs args env input s).status = (run programs args env' input s).status ∧
        (run programs args env input s).output = (run programs args env' input s).output) ↔
      (AsksToServe args → (Unreadable env ↔ Unreadable env')) ∨
      ((run programs ("--no-color" :: args) env input s).status = 1 ∧
        (run programs ("--no-color" :: args) env input s).output = [])) := by
  refine ⟨fun hread => run_alike h hread programs input s, ?_⟩
  by_cases hread : AsksToServe args → (Unreadable env ↔ Unreadable env')
  · have halike := run_alike h hread programs input s
    exact ⟨fun _ => .inl hread, fun _ => ⟨halike.status, halike.output⟩⟩
  · obtain ⟨hargs, hdiffer⟩ := Classical.not_imp.mp hread
    rw [or_iff_right hread]
    by_cases hno : Unreadable env
    · have hyes : ¬Unreadable env' := fun hno' => hdiffer ⟨fun _ => hno', fun _ => hno⟩
      exact run_unreadable_iff h hargs hno hyes programs input s
    · have hno' : Unreadable env' := by
        by_contra hyes
        exact hdiffer ⟨fun h => absurd h hno, fun h => absurd h hyes⟩
      -- the same, told of the other environment
      have hserved := runFilter_alike h programs (colored env true) (colored env' true) input s
      have hiff := run_unreadable_iff h.symm hargs hno' hno programs input s
      rw [run_noColor hargs, ← hserved.status, ← hserved.output] at hiff
      rw [run_noColor hargs, ← hiff]
      exact and_congr eq_comm eq_comm

/-! ### A host with nothing to say -/

/-- A system with nothing but a directory for temporary files. -/
def bareSystem : System where
  disk := ({} : Disk).put [ascii "tmp"] (.dir Disk.plainMode)
  temporary := ascii "/tmp"

/-- The environment of one variable, the one for no colours. -/
def onlyNoColor (value : String) : Environment where
  bindings := [(noColorVariable, ascii value)]

theorem agreeBut_onlyNoColor (value : String) :
    Environment.AgreeBut noColorVariable {} (onlyNoColor value) := by
  intro other hother
  have hne : (other == noColorVariable) = false := by simpa using hother
  rw [bytes?, bytes?, onlyNoColor, List.lookup_cons, hne]

theorem true_unaffected :
    Environment.AgreeBut noColorVariable {} (onlyNoColor "true") ∧
      (run Programs.none ["--filter"] {} [] bareSystem).Alike
        (run Programs.none ["--filter"] (onlyNoColor "true") [] bareSystem) := by
  have hagree := agreeBut_onlyNoColor "true"
  refine ⟨hagree, (unaffected_iff hagree Programs.none ["--filter"] [] bareSystem).1 fun _ => ?_⟩
  have hunset : ¬Unreadable {} := by
    rintro ⟨value, hvalue, -⟩
    cases hvalue
  have htrue : ¬Unreadable (onlyNoColor "true") := by
    rintro ⟨value, hvalue, hno, -⟩
    exact hno (Option.some.inj hvalue).symm
  exact ⟨fun h => absurd h hunset, fun h => absurd h htrue⟩

/-- **A value that is none stops the program**: a host that closes the channel at once is served to
its end, but under the value `1` that is a mistake in use. -/
theorem one_stops_serving :
    Environment.AgreeBut noColorVariable {} (onlyNoColor "1") ∧
      (run Programs.none ["--filter"] {} [] bareSystem).status = 0 ∧
      (run Programs.none ["--filter"] (onlyNoColor "1") [] bareSystem).status = 1 := by
  refine ⟨agreeBut_onlyNoColor "1", by decide +kernel, ?_⟩
  have hargs : AsksToServe ["--filter"] := by
    rw [AsksToServe]
    decide
  have hno : Unreadable (onlyNoColor "1") := ⟨ascii "1", rfl, by decide, by decide⟩
  rw [run_of_unreadable hargs hno]

end ImageScoring.CommandLine
