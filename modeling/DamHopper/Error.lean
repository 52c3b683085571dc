/-!
# Error — the server's error type

`error.rs`. Only the variants that a modelled function returns are listed.
-/

namespace DamHopper

inductive AppError where
  | internal (message : String)
  | unavailable (message : String)
  | idleSuspendHandoffInProgress (message : String)
  | invalidInput (message : String)
  | git (message : String)
  | ptyError (message : String)
  | sessionNotFound (id : String)
  | incarnationMismatch
  deriving Repr, DecidableEq

def AppError.display : AppError → String
  | .internal message => s!"Internal error: {message}"
  | .unavailable message => s!"Unavailable: {message}"
  | .idleSuspendHandoffInProgress message => s!"Idle suspend handoff in progress: {message}"
  | .invalidInput message => s!"Invalid input: {message}"
  | .git message => s!"Git error: {message}"
  | .ptyError message => s!"PTY error: {message}"
  | .sessionNotFound id => s!"Session not found: {id}"
  | .incarnationMismatch =>
    "Browser debug error: browser debug terminal incarnation mismatch"

end DamHopper
