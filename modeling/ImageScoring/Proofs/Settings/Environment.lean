import ImageScoring.Proofs.Utf8
import ImageScoring.Settings.Config

/-!
# What is seen of an environment

An environment is seen only through the variables that are asked for. So two environments that
differ in one variable (`AgreeBut`) are the same to whatever does not ask for it.
-/

namespace ImageScoring

namespace Environment

variable {env env' : Environment} {name other : String}

/-- A variable counts as a text exactly if it is set, to octets that are the text in UTF-8. -/
theorem text?_eq_some_iff {text : String} :
    env.text? name = some text ↔ env.bytes? name = some (Utf8.ofText text) := by
  rw [text?]
  cases env.bytes? name with
  | none => simp
  | some octets =>
    dsimp only
    rw [Option.some.injEq, ← Utf8.toText?_eq_ok_iff]
    cases Utf8.toText? octets with
    | ok found => simp [Except.toOption]
    | error fault => simp [Except.toOption]

theorem text?_congr (h : env.bytes? name = env'.bytes? name) :
    env.text? name = env'.text? name := by
  rw [text?, text?, h]

/-- Two environments differ in one variable at most. -/
def AgreeBut (name : String) (env env' : Environment) : Prop :=
  ∀ other, other ≠ name → env.bytes? other = env'.bytes? other

namespace AgreeBut

theorem symm (h : AgreeBut name env env') : AgreeBut name env' env := fun other hother =>
  (h other hother).symm

theorem text? (h : AgreeBut name env env') (hother : other ≠ name) :
    env.text? other = env'.text? other :=
  text?_congr (h other hother)

theorem number? (h : AgreeBut name env env') (hother : other ≠ name) :
    env.number? other = env'.number? other := by
  rw [Environment.number?, Environment.number?, h.text? hother]

theorem parsed? {α : Type} {parse : String → Except String α} (h : AgreeBut name env env')
    (hother : other ≠ name) : env.parsed? parse other = env'.parsed? parse other := by
  rw [Environment.parsed?, Environment.parsed?, h.text? hother]

end AgreeBut

end Environment

namespace Config

variable {env env' : Environment} {name : String}

/-- The defaults are those of the user's directories. -/
theorem default_congr (h : env.AgreeBut name env') (hhome : "HOME" ≠ name)
    (hdata : "XDG_DATA_HOME" ≠ name) (home : Option Path) :
    default env home = default env' home := by
  simp only [default, defaultAssetDir, dataDir, homeDir, h "HOME" hhome, h "XDG_DATA_HOME" hdata]

end Config

end ImageScoring
