import ScriptPool.Config.Basic
import ScriptPool.Error

/-!
# Failures of interpreters, pools and executions

Each layer adds its own causes to those of the layer below it.
-/

set_option autoImplicit false

namespace ScriptPool

/-- Why an interpreter could not be made, used or restored. -/
inductive InterpreterError where
  | creation (reason : String)
  | script (reason : String)
  | reset (reason : String)
  deriving Repr, DecidableEq

/-- The wording of a failure of an interpreter. -/
def InterpreterError.message : InterpreterError → String
  | .creation reason => "failed to create interpreter: " ++ reason
  | .script reason => "script error: " ++ reason
  | .reset reason => "failed to reset interpreter: " ++ reason

/-- Why a pool could not do what it was asked for. -/
inductive PoolError where
  /-- No interpreter became free within the time given. -/
  | exhausted (waited : Duration)
  | canceled
  | closed
  | creationFailed (reason : String)
  /-- Interpreters were still out when the time for shutting down was over. -/
  | shutdownTimeout (inUse : Nat)
  | config (cause : ConfigError)
  deriving Repr, DecidableEq

/-- The wording of a failure of a pool. -/
def PoolError.message : PoolError → String
  | .exhausted waited => "pool exhausted after waiting " ++ waited.describe
  | .canceled => "acquire canceled"
  | .closed => "pool is closed"
  | .creationFailed reason => "interpreter creation failed: " ++ reason
  | .shutdownTimeout inUse =>
      "shutdown timed out with " ++ toString inUse ++ " interpreters still in use"
  | .config cause => "invalid pool configuration: " ++ cause.message

/-- Why a script could not be executed on a pool. -/
inductive ExecutionError where
  | pool (cause : PoolError)
  | interpreter (cause : InterpreterError)
  | conversion (cause : ConvertError)
  /-- The task that executed the script broke down. -/
  | task (reason : String)
  deriving Repr, DecidableEq

/-- The wording of a failed execution. -/
def ExecutionError.message : ExecutionError → String
  | .pool cause => "pool error: " ++ cause.message
  | .interpreter cause => cause.message
  | .conversion cause => "conversion error: " ++ cause.message
  | .task reason => "execution task failed: " ++ reason

end ScriptPool
