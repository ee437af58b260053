import ScriptPool.Decimal.Layout
import ScriptPool.Text.Utf8
import ScriptPool.Value.Basic

/-!
# Guest values

The values of the scripting language.  Scalars and strings are values; tables, functions and
userdata are references into the heap of one guest state (`ScriptPool.Guest.Heap`), so two of them
are the same exactly when the references are.

Three comparisons are in use and they differ on numbers only:

* `GuestValue.rawEqual`, the language's own: an integer equals a float that stands for it exactly;
* `GuestValue.agrees`, the host's: an integer equals a float if it rounds to it;
* `GuestValue.identical`: the same subtype and the same bits.
-/

set_option autoImplicit false

namespace ScriptPool

/-- An error of the guest or of the interface to it. -/
inductive GuestFault where
  | runtime (message : String)
  | memory
  | malformed (message : String)
  /-- A value could not be taken as a host type. -/
  | mismatch (source target : String) (reason : Option String)
  /-- The execution does not come to an end: it goes on for ever, or it stops in the middle and
  waits to be resumed.  Nothing can catch this. -/
  | endless
  deriving Repr, DecidableEq

/-- The wording of an error. -/
def GuestFault.message : GuestFault → String
  | .runtime message => "runtime error: " ++ message
  | .memory => "memory error: not enough memory"
  | .malformed message => "syntax error: " ++ message
  | .mismatch source target reason =>
      "error converting Lua " ++ source ++ " to " ++ target ++
        (match reason with
          | some reason => " (" ++ reason ++ ")"
          | none => "")
  | .endless => "execution does not end"

/-- A value of the scripting language. -/
inductive GuestValue where
  | nil
  | boolean (b : Bool)
  | integer (n : Int64)
  | float (x : Float)
  | string (bytes : ByteArray)
  | table (id : Nat)
  | function (id : Nat)
  /-- A coroutine, light userdata or userdata. -/
  | object (o : GuestObject)
  /-- An error of the host, carried as a value. -/
  | fault (f : GuestFault)

instance : Inhabited GuestValue := ⟨.nil⟩

namespace GuestValue

/-- A string value from text. -/
def ofString (s : String) : GuestValue := .string s.toUTF8

/-- An integer value; what does not fit wraps around. -/
def ofInt (n : Int) : GuestValue := .integer (Int64.ofInt n)

/-- The name of a value's type, with the two subtypes of numbers apart. -/
def typeName : GuestValue → String
  | .nil => "nil"
  | .boolean _ => "boolean"
  | .integer _ => "integer"
  | .float _ => "number"
  | .string _ => "string"
  | .table _ => "table"
  | .function _ => "function"
  | .object o => o.typeName
  | .fault _ => "error"

/-- The name of a value's type as scripts see it. -/
def scriptType : GuestValue → String
  | .integer _ => "number"
  | .object (.lightUserdata _) => "userdata"
  | .fault _ => "userdata"
  | v => v.typeName

/-- Is the value true where a script tests it? -/
def isTruthy : GuestValue → Bool
  | .nil => false
  | .boolean b => b
  | _ => true

def isNil : GuestValue → Bool
  | .nil => true
  | _ => false

/-- Equality of the language, without metamethods. -/
def rawEqual : GuestValue → GuestValue → Bool
  | .nil, .nil => true
  | .boolean a, .boolean b => a == b
  | .integer a, .integer b => a == b
  | .integer a, .float b => Decimal.integer? b == some a.toInt
  | .float a, .integer b => Decimal.integer? a == some b.toInt
  | .float a, .float b => a == b
  | .string a, .string b => a == b
  | .table a, .table b => a == b
  | .function a, .function b => a == b
  | .object a, .object b => a == b
  | _, _ => false

/-- Equality of the host: numbers of different subtypes are compared as floats. -/
def agrees : GuestValue → GuestValue → Bool
  | .integer a, .float b => Float.ofInt a.toInt == b
  | .float a, .integer b => a == Float.ofInt b.toInt
  | a, b => rawEqual a b

/-- The same value in every respect. -/
def identical : GuestValue → GuestValue → Bool
  | .integer a, .integer b => a == b
  | .float a, .float b => a.toBits == b.toBits
  | .integer _, .float _ => false
  | .float _, .integer _ => false
  | a, b => rawEqual a b

/-- The key that a value becomes in a table: a float that stands for an integer becomes that
integer.  `nil` and what is not a number cannot be keys. -/
def toKey? : GuestValue → Option GuestValue
  | .nil => none
  | .float x =>
      if x.isNaN then none
      else
        match Decimal.integer? x with
        | some n => if -(2 ^ 63) ≤ n ∧ n < 2 ^ 63 then some (ofInt n) else some (.float x)
        | none => some (.float x)
  | v => some v

/-- What has been normalised stays as it is. -/
theorem toKey?_of_toKey? {v key : GuestValue} (h : v.toKey? = some key) : key.toKey? = some key := by
  cases v with
  | nil => cases h
  | float x =>
    have hx := h
    rw [toKey?] at h
    split at h
    · cases h
    · split at h
      · split at h
        · cases h
          rfl
        · cases h
          exact hx
      · cases h
        exact hx
  | _ =>
    cases h
    rfl

end GuestValue
end ScriptPool
