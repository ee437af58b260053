import ScriptPool.Value.Basic

/-!
# Equality of canonical values

Data compares by structure, functions and channels and custom values by identity, and errors by
their message.  Numbers compare as numbers: a value that contains one that is not a number differs
from itself, so this relation is not reflexive, and `0.0` equals `-0.0`.
-/

set_option autoImplicit false

namespace ScriptPool
namespace Value

mutual

/-- Are two values equal? -/
def same : Value → Value → Bool
  | .nil, .nil => true
  | .bool a, .bool b => a == b
  | .number a, .number b => a == b
  | .string a, .string b => a == b
  | .array a, .array b => sameItems a b
  | .object a, .object b => sameFields a b
  | .function a, .function b => a.handle == b.handle
  | .error a, .error b => a.message == b.message
  | .channel a, .channel b => a.id == b.id && a.handle == b.handle
  | .custom a, .custom b => a.tag == b.tag && a.handle == b.handle
  | _, _ => false

/-- Element by element, and of one length. -/
def sameItems : List Value → List Value → Bool
  | [], [] => true
  | a :: as, b :: bs => same a b && sameItems as bs
  | _, _ => false

/-- The same names in the same order, with equal values. -/
def sameFields : List (String × Value) → List (String × Value) → Bool
  | [], [] => true
  | (k, a) :: as, (l, b) :: bs => k == l && same a b && sameFields as bs
  | _, _ => false

end

instance : BEq Value := ⟨same⟩

end Value
end ScriptPool
