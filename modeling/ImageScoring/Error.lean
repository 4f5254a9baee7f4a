/-!
# Errors

Every way in which setting a filter up, scoring an object or talking to the host can fail. An
error that leaves nothing usable behind is fatal; every other one is confined to the request that
met it.
-/

namespace ImageScoring

/-- What went wrong. -/
inductive Error where
  /-- A stream or a system call failed. -/
  | io (cause : String)
  /-- The workspace could not be set up. -/
  | workspace (cause : String)
  /-- The worker archive could not be read. -/
  | archive (cause : String)
  /-- None of that many display numbers was free. -/
  | displayExhausted (candidates : Nat)
  /-- The display server could not be started. -/
  | display (cause : String)
  /-- The worker could not be started. -/
  | spawn (cause : String)
  /-- The worker no longer takes requests or answers them. -/
  | workerGone (cause : String)
  /-- The argument that names the script is no such name. -/
  | scriptName (cause : String)
  /-- An attribute of the object is missing or of the wrong shape. -/
  | badAttribute (name problem : String)
  /-- The host broke off or did not keep to the protocol. -/
  | host (cause : String)
  /-- A setting makes no sense. -/
  | config (cause : String)
  /-- The call never returns: it waits for a process that neither writes nor ends. -/
  | hung
  deriving DecidableEq, Repr

namespace Error

/-- The wording of an error. -/
def message : Error → String
  | .io cause => "IO error: " ++ cause
  | .workspace cause => "Workspace setup failed: " ++ cause
  | .archive cause => "Worker archive error: " ++ cause
  | .displayExhausted candidates =>
    "No free display among " ++ toString candidates ++ " candidates"
  | .display cause => "Display server error: " ++ cause
  | .spawn cause => "Failed to start worker: " ++ cause
  | .workerGone cause => "Worker is gone: " ++ cause
  | .scriptName cause => "Invalid macro name argument: " ++ cause
  | .badAttribute name problem => "Object attribute '" ++ name ++ "' " ++ problem
  | .host cause => "Host channel error: " ++ cause
  | .config cause => "Configuration error: " ++ cause
  | .hung => "waiting for ever"

/-- Whether the error ends the whole filter: setting it up failed, and nothing usable is left. -/
def isFatal : Error → Bool
  | .workspace _ | .archive _ | .displayExhausted _ | .display _ | .spawn _ | .scriptName _
  | .config _ => true
  | .io _ | .workerGone _ | .badAttribute .. | .host _ | .hung => false

end Error

end ImageScoring
