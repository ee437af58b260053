import ScriptPool.Text.Quoted

/-!
# Failures of conversions and of calls

Each failure is a cause; its wording is one function.  A call that fails on the way in or out
carries the conversion failure as its cause.
-/

set_option autoImplicit false

namespace ScriptPool

/-- Why a value could not cross. -/
inductive ConvertError where
  /-- An aggregate is nested more deeply than the converter allows. -/
  | tooDeep (limit : Nat)
  /-- A table contains itself. -/
  | circular
  /-- Something without a counterpart on the other side; `what` names it. -/
  | unsupported (what : String)
  /-- The guest refused an operation that the conversion needed. -/
  | guest (message : String)
  /-- A type tag already has a codec. -/
  | duplicateTag (tag : String)
  deriving Repr, DecidableEq

/-- The wording of a conversion failure. -/
def ConvertError.message : ConvertError → String
  | .tooDeep limit => "maximum conversion depth " ++ toString limit ++ " exceeded"
  | .circular => "circular reference detected"
  | .unsupported what => "unsupported type: " ++ what
  | .guest message => "guest error: " ++ message
  | .duplicateTag tag => "custom type " ++ Text.quote tag ++ " is already registered"

/-- Why a call from the host failed. -/
inductive CallError where
  | conversion (cause : ConvertError)
  | failed (message : String)
  deriving Repr, DecidableEq

/-- The wording of a failed call. -/
def CallError.message : CallError → String
  | .conversion cause => "conversion failed: " ++ cause.message
  | .failed message => message

end ScriptPool
