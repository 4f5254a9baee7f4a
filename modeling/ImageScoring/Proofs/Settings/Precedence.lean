import ImageScoring.Proofs.Count
import ImageScoring.Proofs.Settings.Environment

/-!
# Which value a setting has

The configuration is told setting by setting: what a variable says about a setting (`Told`), which
changes set it (`Change.sets`), and its value (`Config.get`). A variable that says something wins
over every change, of the changes the last one that sets the setting counts, and else the default
does (`resolved`).
-/

namespace ImageScoring

/-- A number below the limit of displays, as a text: digits, perhaps behind a plus sign. -/
inductive Count.IsDisplay : String → Nat → Prop where
  | intro {text : String} {sign digits : List Char} {n : Nat} :
      text.toList = sign ++ digits → (sign = [] ∨ sign = ['+']) → digits ≠ [] →
      (∀ c ∈ digits, c.isDigit = true) → Nat.ofDigitChars 10 digits 0 = n → n < displayLimit →
      IsDisplay text n

theorem Count.read?_displayLimit_eq_some_iff {text : String} {n : Nat} :
    read? displayLimit text.toList = some n ↔ IsDisplay text n := by
  rw [read?_eq_some_iff]
  constructor
  · rintro ⟨sign, digits, htext, hsign, hne, hdigits, hvalue, hlimit⟩
    exact .intro htext hsign hne hdigits hvalue hlimit
  · rintro ⟨htext, hsign, hne, hdigits, hvalue, hlimit⟩
    exact ⟨_, _, htext, hsign, hne, hdigits, hvalue, hlimit⟩

/-- In a list that has no word twice, the value of a word is the one beside it. -/
theorem lookup_eq_some_iff_mem {α : Type} {words : List (String × α)} {word : String} {value : α}
    (hwords : (words.map Prod.fst).Nodup) :
    words.lookup word = some value ↔ (word, value) ∈ words := by
  induction words with
  | nil => simp
  | cons first words ih =>
    obtain ⟨other, found⟩ := first
    rw [List.map_cons, List.nodup_cons] at hwords
    obtain ⟨hno, hwords⟩ := hwords
    by_cases heq : word = other
    · subst heq
      have habsent : (word, value) ∉ words := fun h => hno (List.mem_map.mpr ⟨_, h, rfl⟩)
      simp [habsent, eq_comm]
    · have hne : (word == other) = false := by simpa using heq
      rw [List.lookup_cons, hne, List.mem_cons, Prod.mk.injEq]
      simp [heq, ih hwords]

namespace Choice

variable {α : Type} {choice : Choice α} {text : String} {value : α}

theorem toOption_parse_eq_some_iff (hwords : (choice.words.map Prod.fst).Nodup) :
    (choice.parse text).toOption = some value ↔ (Text.lower text, value) ∈ choice.words := by
  rw [← lookup_eq_some_iff_mem hwords, parse, Text.keyword?]
  cases choice.words.lookup (Text.lower text) with
  | none => simp [Except.toOption]
  | some found => simp [Except.toOption]

end Choice

/-! ### Settings -/

/-- The single settings; a program and its arguments are two. -/
inductive Setting where
  | assetDir
  | workerArchive
  | workerDir
  | loader
  | filterPlugin
  | dataDir
  | workerProgram
  | workerArgs
  | serverProgram
  | serverArgs
  | maxDisplays
  | fixedDisplay
  | replyForm
  | imageSource
  | framingPolicy
  deriving DecidableEq, Repr

namespace Setting

/-- The values that a setting can have. -/
def Value : Setting → Type
  | .assetDir => Path
  | .workerArchive | .workerDir | .loader | .filterPlugin | .dataDir => String
  | .workerProgram | .serverProgram => String
  | .workerArgs | .serverArgs => List String
  | .maxDisplays => Nat
  | .fixedDisplay => Option Nat
  | .replyForm => ReplyForm
  | .imageSource => ImageSource
  | .framingPolicy => FramingPolicy

/-- The variable that is about a setting. -/
def variableName? : Setting → Option String
  | .assetDir => some "IJEXEC_HOME"
  | .workerArchive => some "IJEXEC_WORKER_ARCHIVE"
  | .workerProgram => some "IJEXEC_JAVA"
  | .serverProgram => some "IJEXEC_XVFB"
  | .maxDisplays => some "IJEXEC_MAX_DISPLAYS"
  | .fixedDisplay => some "IJEXEC_DISPLAY"
  | .replyForm => some "IJEXEC_PROTOCOL"
  | .imageSource => some "IJEXEC_IMAGE_SOURCE"
  | .framingPolicy => some "IJEXEC_ON_FRAMING_ERROR"
  | .workerDir | .loader | .filterPlugin | .dataDir | .workerArgs | .serverArgs => none

/-- Which texts stand for which values of a setting. A path, a name and a program are what the
text says, a number is decimal, and a choice is named by a word in any case. -/
inductive Denotes : (s : Setting) → String → s.Value → Prop where
  | assetDir (text : String) : Denotes .assetDir text (Path.ofText text)
  | workerArchive (text : String) : Denotes .workerArchive text text
  | workerProgram (text : String) : Denotes .workerProgram text text
  | serverProgram (text : String) : Denotes .serverProgram text text
  | maxDisplays {text : String} {n : Nat} : Count.IsDisplay text n → Denotes .maxDisplays text n
  | fixedDisplay {text : String} {n : Nat} :
      Count.IsDisplay text n → Denotes .fixedDisplay text (some n)
  | replyForm {text : String} {form : ReplyForm} :
      (Text.lower text, form) ∈ ReplyForm.choice.words → Denotes .replyForm text form
  | imageSource {text : String} {source : ImageSource} :
      (Text.lower text, source) ∈ ImageSource.choice.words → Denotes .imageSource text source
  | framingPolicy {text : String} {policy : FramingPolicy} :
      (Text.lower text, policy) ∈ FramingPolicy.choice.words → Denotes .framingPolicy text policy

/-- What the environment says about a setting: its variable is set, to a text in UTF-8 that stands
for a value. -/
def Told (env : Environment) (s : Setting) (value : s.Value) : Prop :=
  ∃ name text, s.variableName? = some name ∧ env.bytes? name = some (Utf8.ofText text) ∧
    s.Denotes text value

end Setting

namespace Config

/-- The value of a setting. -/
def get (c : Config) : (s : Setting) → s.Value
  | .assetDir => c.sources.assetDir
  | .workerArchive => c.sources.workerArchive
  | .workerDir => c.sources.workerDir
  | .loader => c.sources.loader
  | .filterPlugin => c.sources.filterPlugin
  | .dataDir => c.sources.dataDir
  | .workerProgram => c.worker.program
  | .workerArgs => c.worker.args
  | .serverProgram => c.server.program
  | .serverArgs => c.server.args
  | .maxDisplays => c.maxDisplays
  | .fixedDisplay => c.fixedDisplay
  | .replyForm => c.replyForm
  | .imageSource => c.imageSource
  | .framingPolicy => c.framingPolicy

/-- What a change sets a setting to, if it does. -/
def Change.sets (change : Change) : (s : Setting) → Option s.Value
  | .assetDir => match change with | .assetDir dir => some (Path.ofText dir) | _ => none
  | .workerProgram => match change with | .worker command => some command.program | _ => none
  | .workerArgs => match change with | .worker command => some command.args | _ => none
  | .serverProgram => match change with | .server command => some command.program | _ => none
  | .serverArgs => match change with | .server command => some command.args | _ => none
  | .maxDisplays => match change with | .maxDisplays count => some count | _ => none
  | .fixedDisplay => match change with | .fixedDisplay number => some (some number) | _ => none
  | .replyForm => match change with | .replyForm form => some form | _ => none
  | .imageSource => match change with | .imageSource source => some source | _ => none
  | .framingPolicy => match change with | .framingPolicy policy => some policy | _ => none
  | .workerArchive | .workerDir | .loader | .filterPlugin | .dataDir => none

/-- What the last of the changes that set a setting sets it to. -/
def lastSet (changes : List Change) (s : Setting) : Option s.Value :=
  (changes.filterMap (·.sets s)).getLast?

variable {c c' : Config} {env env' : Environment}

/-- The settings are all that there is to a configuration. -/
theorem ext_get (h : ∀ s, c.get s = c'.get s) : c = c' := by
  obtain ⟨sources, worker, server, maxDisplays, fixedDisplay, replyForm, imageSource,
    framingPolicy⟩ := c
  obtain ⟨sources', worker', server', maxDisplays', fixedDisplay', replyForm', imageSource',
    framingPolicy'⟩ := c'
  have hsources : sources = sources' := by
    cases sources
    cases sources'
    rw [Sources.mk.injEq]
    exact ⟨h .assetDir, h .workerArchive, h .workerDir, h .loader, h .filterPlugin, h .dataDir⟩
  have hworker : worker = worker' := by
    cases worker
    cases worker'
    rw [Command.mk.injEq]
    exact ⟨h .workerProgram, h .workerArgs⟩
  have hserver : server = server' := by
    cases server
    cases server'
    rw [Command.mk.injEq]
    exact ⟨h .serverProgram, h .serverArgs⟩
  rw [Config.mk.injEq]
  exact ⟨hsources, hworker, hserver, h .maxDisplays, h .fixedDisplay, h .replyForm,
    h .imageSource, h .framingPolicy⟩

/-! ### Changes -/

theorem get_apply (c : Config) (change : Change) (s : Setting) :
    (c.apply change).get s = (change.sets s).getD (c.get s) := by
  cases change <;> cases s <;> rfl

theorem lastSet_cons (change : Change) (changes : List Change) (s : Setting) :
    lastSet (change :: changes) s = (lastSet changes s).or (change.sets s) := by
  rw [lastSet, lastSet, List.filterMap_cons]
  cases change.sets s with
  | none => simp
  | some value => simp [List.getLast?_cons]

/-- Of the changes, the last one that sets a setting counts. -/
theorem get_applyAll (c : Config) (changes : List Change) (s : Setting) :
    (c.applyAll changes).get s = (lastSet changes s).getD (c.get s) := by
  induction changes generalizing c with
  | nil => rfl
  | cons change changes ih =>
    have hstep : c.applyAll (change :: changes) = (c.apply change).applyAll changes := rfl
    rw [hstep, ih, get_apply, lastSet_cons]
    cases lastSet changes s <;> rfl

/-- Two changes that have no setting in common may be made in either order. -/
theorem apply_apply_of_disjoint {a b : Change} (h : ∀ s, a.sets s = none ∨ b.sets s = none) :
    (c.apply a).apply b = (c.apply b).apply a := by
  refine ext_get fun s => ?_
  simp only [get_apply]
  rcases h s with hs | hs
  · simp [hs]
  · simp [hs]

end Config

/-! ### Variables -/

namespace Setting

/-- The value of a setting that a text stands for. -/
def read? : (s : Setting) → String → Option s.Value
  | .assetDir, text => some (Path.ofText text)
  | .workerArchive, text | .workerProgram, text | .serverProgram, text => some text
  | .maxDisplays, text => Count.read? Count.displayLimit text.toList
  | .fixedDisplay, text => (Count.read? Count.displayLimit text.toList).map some
  | .replyForm, text => (ReplyForm.choice.parse text).toOption
  | .imageSource, text => (ImageSource.choice.parse text).toOption
  | .framingPolicy, text => (FramingPolicy.choice.parse text).toOption
  | .workerDir, _ | .loader, _ | .filterPlugin, _ | .dataDir, _ | .workerArgs, _
  | .serverArgs, _ => none

/-- The value that the environment tells for a setting. -/
def told? (env : Environment) (s : Setting) : Option s.Value :=
  (s.variableName?.bind env.text?).bind s.read?

theorem read?_eq_some_iff {s : Setting} {text : String} {value : s.Value} :
    s.read? text = some value ↔ s.Denotes text value := by
  constructor
  · intro h
    cases s with
    | assetDir => cases h; exact .assetDir text
    | workerArchive => cases h; exact .workerArchive text
    | workerProgram => cases h; exact .workerProgram text
    | serverProgram => cases h; exact .serverProgram text
    | maxDisplays => exact .maxDisplays (Count.read?_displayLimit_eq_some_iff.mp h)
    | fixedDisplay =>
      obtain ⟨n, hn, rfl⟩ := Option.map_eq_some_iff.mp h
      exact .fixedDisplay (Count.read?_displayLimit_eq_some_iff.mp hn)
    | replyForm => exact .replyForm ((Choice.toOption_parse_eq_some_iff (by decide)).mp h)
    | imageSource => exact .imageSource ((Choice.toOption_parse_eq_some_iff (by decide)).mp h)
    | framingPolicy => exact .framingPolicy ((Choice.toOption_parse_eq_some_iff (by decide)).mp h)
    | workerDir | loader | filterPlugin | dataDir | workerArgs | serverArgs => cases h
  · intro h
    cases h with
    | assetDir | workerArchive | workerProgram | serverProgram => rfl
    | maxDisplays hn => exact Count.read?_displayLimit_eq_some_iff.mpr hn
    | fixedDisplay hn =>
      exact Option.map_eq_some_iff.mpr ⟨_, Count.read?_displayLimit_eq_some_iff.mpr hn, rfl⟩
    | replyForm hw => exact (Choice.toOption_parse_eq_some_iff (by decide)).mpr hw
    | imageSource hw => exact (Choice.toOption_parse_eq_some_iff (by decide)).mpr hw
    | framingPolicy hw => exact (Choice.toOption_parse_eq_some_iff (by decide)).mpr hw

/-- What is told for a setting depends on its own variable alone. -/
theorem told?_congr {env env' : Environment} {s : Setting}
    (h : ∀ name, s.variableName? = some name → env.bytes? name = env'.bytes? name) :
    s.told? env = s.told? env' := by
  rw [told?, told?]
  cases hname : s.variableName? with
  | none => rfl
  | some name => rw [Option.bind_some, Option.bind_some, Environment.text?_congr (h name hname)]

theorem told?_eq_some_iff {env : Environment} {s : Setting} {value : s.Value} :
    s.told? env = some value ↔ s.Told env value := by
  simp only [told?, Told, Option.bind_eq_some_iff, Environment.text?_eq_some_iff,
    read?_eq_some_iff]
  constructor
  · rintro ⟨text, ⟨name, hname, htext⟩, hdenotes⟩
    exact ⟨name, text, hname, htext, hdenotes⟩
  · rintro ⟨name, text, hname, htext, hdenotes⟩
    exact ⟨text, ⟨name, hname, htext⟩, hdenotes⟩

theorem told?_eq_none_iff {env : Environment} {s : Setting} :
    s.told? env = none ↔ ∀ value, ¬s.Told env value := by
  simp only [Option.eq_none_iff_forall_ne_some, ne_eq, told?_eq_some_iff]

end Setting

namespace Config

/-- What the environment tells for a setting counts, and else the setting stays. -/
theorem get_override (env : Environment) (c : Config) (s : Setting) :
    (c.override env).get s = (s.told? env).getD (c.get s) := by
  have htext : ∀ (name value : String),
      (env.text? name).getD value = ((env.text? name).bind some).getD value := by
    intro name value
    cases env.text? name <;> rfl
  cases s with
  | assetDir =>
    change ((env.text? "IJEXEC_HOME").map Path.ofText).getD _ =
      ((env.text? "IJEXEC_HOME").bind fun text => some (Path.ofText text)).getD _
    cases env.text? "IJEXEC_HOME" <;> rfl
  | workerArchive => exact htext "IJEXEC_WORKER_ARCHIVE" c.sources.workerArchive
  | workerProgram => exact htext "IJEXEC_JAVA" c.worker.program
  | serverProgram => exact htext "IJEXEC_XVFB" c.server.program
  | fixedDisplay =>
    change (env.number? "IJEXEC_DISPLAY").or c.fixedDisplay =
      ((env.text? "IJEXEC_DISPLAY").bind fun text =>
        (Count.read? Count.displayLimit text.toList).map some).getD c.fixedDisplay
    rw [Environment.number?]
    cases env.text? "IJEXEC_DISPLAY" with
    | none => rfl
    | some text =>
      rw [Option.bind_some, Option.bind_some]
      cases Count.read? Count.displayLimit text.toList <;> rfl
  | maxDisplays | replyForm | imageSource | framingPolicy => rfl
  | workerDir | loader | filterPlugin | dataDir | workerArgs | serverArgs => rfl

/-! ### The law -/

/-- The settings that a program has which makes some changes, under an environment; `home` is the
home directory of the user's account. -/
def configured (home : Option Path) (env : Environment) (changes : List Change) : Config :=
  ((default env home).applyAll changes).override env

theorem get_configured (home : Option Path) (env : Environment) (changes : List Change)
    (s : Setting) :
    (configured home env changes).get s =
      (s.told? env).getD ((lastSet changes s).getD ((default env home).get s)) := by
  rw [configured, get_override, get_applyAll]

theorem variableName?_ne {s : Setting} {name : String} (h : s.variableName? = some name) :
    "HOME" ≠ name ∧ "XDG_DATA_HOME" ≠ name := by
  cases s <;> cases h <;> decide

theorem override_override (env : Environment) (c : Config) :
    (c.override env).override env = c.override env := by
  refine ext_get fun s => ?_
  rw [get_override, get_override]
  cases s.told? env <;> rfl

/-- **Which value a setting has**: what its variable says, if that stands for a value; else what the
last change that sets it says; else the default. So the arguments of programs stay as they are set,
a variable is about its own setting alone, changes of different settings may be made in either
order, and asking the same environment twice changes nothing. -/
theorem resolved (home : Option Path) (env : Environment) (changes : List Change) :
    (∀ s, (∀ told, s.Told env told → (configured home env changes).get s = told) ∧
      ((∀ told, ¬s.Told env told) →
        (configured home env changes).get s =
          (lastSet changes s).getD ((default env home).get s))) ∧
    (∀ c, (override env c).worker.args = c.worker.args ∧
      (override env c).server.args = c.server.args) ∧
    (∀ (env' : Environment) (s other : Setting) (name : String), other.variableName? = some name →
      env.AgreeBut name env' → s.variableName? ≠ some name →
      (configured home env changes).get s = (configured home env' changes).get s) ∧
    (∀ c a b, (∀ s, Change.sets a s = none ∨ Change.sets b s = none) →
      (apply c a).apply b = (apply c b).apply a) ∧
    ∀ c, (override env c).override env = override env c := by
  refine ⟨fun s => ⟨fun told h => ?_, fun hno => ?_⟩, fun c => ⟨rfl, rfl⟩, ?_,
    fun c a b h => apply_apply_of_disjoint h, override_override env⟩
  · rw [get_configured, Setting.told?_eq_some_iff.mpr h, Option.getD_some]
  · rw [get_configured, Setting.told?_eq_none_iff.mpr hno, Option.getD_none]
  · intro env' s other name hname hagree hs
    have htold : s.told? env = s.told? env' := by
      refine Setting.told?_congr fun name' hname' => hagree name' ?_
      rintro rfl
      exact hs hname'
    obtain ⟨hhome, hdata⟩ := variableName?_ne hname
    rw [get_configured, get_configured, htold, default_congr hagree hhome hdata home]

/-- A mixed environment: a path, a number behind a plus sign, a word that is none, and octets that
are no text. -/
def mixedEnvironment : Environment where
  bindings := [("IJEXEC_HOME", ascii "/srv/assets"), ("IJEXEC_DISPLAY", ascii "+42"),
    ("IJEXEC_PROTOCOL", ascii "nonsense"), ("IJEXEC_JAVA", [0xFF])]

/-- Two changes of one setting, and two that the environment does not overrule. -/
def mixedChanges : List Change :=
  [.maxDisplays 3, .worker ⟨"jre", ["-q"]⟩, .replyForm .bare, .maxDisplays 4]

theorem mixed_resolved :
    ((Setting.assetDir.Told mixedEnvironment (ascii "/srv/assets") ∧
        Setting.fixedDisplay.Told mixedEnvironment (some 42)) ∧
      ((∀ told, ¬Setting.replyForm.Told mixedEnvironment told) ∧
        ∀ told, ¬Setting.workerProgram.Told mixedEnvironment told) ∧
      mixedEnvironment.AgreeBut "IJEXEC_HOME" ⟨mixedEnvironment.bindings.tail⟩ ∧
      ∀ s, Change.sets (.maxDisplays 3) s = none ∨ Change.sets (.replyForm .bare) s = none) ∧
    ((configured none mixedEnvironment mixedChanges).sources.assetDir = ascii "/srv/assets" ∧
      (configured none mixedEnvironment mixedChanges).fixedDisplay = some 42 ∧
      (configured none mixedEnvironment mixedChanges).replyForm = .bare ∧
      (configured none mixedEnvironment mixedChanges).worker.program = "jre") ∧
    (configured none mixedEnvironment mixedChanges).fixedDisplay =
      (configured none ⟨mixedEnvironment.bindings.tail⟩ mixedChanges).fixedDisplay ∧
    ((default mixedEnvironment none).apply (.maxDisplays 3)).apply (.replyForm .bare) =
      ((default mixedEnvironment none).apply (.replyForm .bare)).apply (.maxDisplays 3) := by
  have hdir : Setting.assetDir.Told mixedEnvironment (ascii "/srv/assets") :=
    Setting.told?_eq_some_iff.mp (by rfl)
  have hdisplay : Setting.fixedDisplay.Told mixedEnvironment (some 42) :=
    Setting.told?_eq_some_iff.mp (by rfl)
  have hform : ∀ told, ¬Setting.replyForm.Told mixedEnvironment told :=
    Setting.told?_eq_none_iff.mp (by rfl)
  have hprogram : ∀ told, ¬Setting.workerProgram.Told mixedEnvironment told :=
    Setting.told?_eq_none_iff.mp (by rfl)
  have hagree : mixedEnvironment.AgreeBut "IJEXEC_HOME" ⟨mixedEnvironment.bindings.tail⟩ := by
    intro other hother
    have hne : (other == "IJEXEC_HOME") = false := by simpa using hother
    rw [Environment.bytes?, mixedEnvironment, List.lookup_cons, hne]
    rfl
  have hdisjoint : ∀ s,
      Change.sets (.maxDisplays 3) s = none ∨ Change.sets (.replyForm .bare) s = none := by
    intro s
    cases s <;> simp [Change.sets]
  obtain ⟨hresolved, -, hother, hcommute, -⟩ := resolved none mixedEnvironment mixedChanges
  exact ⟨⟨⟨hdir, hdisplay⟩, ⟨hform, hprogram⟩, hagree, hdisjoint⟩,
    ⟨(hresolved .assetDir).1 _ hdir, (hresolved .fixedDisplay).1 _ hdisplay,
      (hresolved .replyForm).2 hform, (hresolved .workerProgram).2 hprogram⟩,
    hother _ .fixedDisplay .assetDir _ rfl hagree (by decide), hcommute _ _ _ hdisjoint⟩

end Config

end ImageScoring
