/-!
# Canonical values

A `Value` is what crosses between host programs and guest scripts.  The data constructors are plain
trees.  Functions, channels and custom values are *handles*: two of them are the same when they
share a handle, whatever they are called, and what a handle stands for is kept elsewhere (a function
handle is looked up in a `World`).  Keeping the meaning out of the value is what lets the type be an
ordinary tree: a value can be compared, printed and measured without running anything.

## What is here

* `Value` and the parts of its handle-carrying constructors.
* `Kind` — the ten constructors by name, as they appear in messages.
* accessors, and `Fields`, the sorted field lists of objects.
* `Value.depth` — how deeply aggregates are nested, the measure that conversions bound.
-/

set_option autoImplicit false

-- how bytes are compared here does not depend on what else is imported
attribute [instance (2000)] ByteArray.instDecidableEq

namespace ScriptPool

/-- The identity of something that is shared rather than copied. -/
abbrev Handle := Nat

/-- A callable value.  `name` is for messages; `handle` says which function it is. -/
structure FunctionValue where
  name : String
  handle : Handle
  deriving Repr, DecidableEq, Inhabited

/-- A failure carried as a value, so that scripts can look at it. -/
structure ErrorValue where
  message : String
  /-- The text of the error it was made from, if any. -/
  source : Option String
  deriving Repr, DecidableEq, Inhabited

/-- An asynchronous endpoint: a queue, a stream, a promise. -/
structure Channel where
  id : String
  handle : Handle
  deriving Repr, DecidableEq, Inhabited

/-- A guest object without a canonical form. -/
inductive GuestObject where
  | thread (id : Nat)
  | lightUserdata (address : Nat)
  | userdata (id : Nat)
  deriving Repr, DecidableEq

/-- The guest's name for the type of such an object. -/
def GuestObject.typeName : GuestObject → String
  | .thread _ => "thread"
  | .lightUserdata _ => "lightuserdata"
  | .userdata _ => "userdata"

/-- What a custom value holds. -/
inductive Payload where
  /-- A run of bytes: the form of guest strings that are not UTF-8. -/
  | bytes (data : ByteArray)
  /-- A guest object, and the guest state it belongs to. -/
  | guest (state : Nat) (object : GuestObject)
  /-- A pair of integers. -/
  | pair (x y : Int64)
  /-- An object with an identity and nothing else. -/
  | token
  deriving DecidableEq

/-- A value with a type tag and a payload that has no structural form. -/
structure Custom where
  tag : String
  payload : Payload
  /-- The identity of the payload. -/
  handle : Handle
  deriving DecidableEq

/-- A value that can cross between host and guest. -/
inductive Value where
  | nil
  | bool (b : Bool)
  | number (x : Float)
  | string (s : String)
  | array (items : List Value)
  | object (fields : List (String × Value))
  | function (f : FunctionValue)
  | error (e : ErrorValue)
  | channel (c : Channel)
  | custom (c : Custom)

instance : Inhabited Value := ⟨.nil⟩

/-- The constructors of `Value` by name. -/
inductive Kind where
  | nil | bool | number | string | array | object | function | error | channel | custom
  deriving Repr, DecidableEq

/-- The name of a kind in messages. -/
def Kind.name : Kind → String
  | .nil => "nil"
  | .bool => "bool"
  | .number => "number"
  | .string => "string"
  | .array => "array"
  | .object => "object"
  | .function => "function"
  | .error => "error"
  | .channel => "channel"
  | .custom => "custom"

/-! ## Object fields -/

/-- The fields of an object, in increasing order of their names and each name once. -/
abbrev Fields := List (String × Value)

namespace Fields

/-- The value of a field. -/
def get? (fields : Fields) (name : String) : Option Value :=
  (fields.find? fun field => field.1 == name).map (·.2)

/-- Is there a field of that name? -/
def contains (fields : Fields) (name : String) : Bool := fields.any fun field => field.1 == name

/-- Adds a field at its place in the order, or replaces its value. -/
def insert (name : String) (value : Value) : Fields → Fields
  | [] => [(name, value)]
  | (other, v) :: rest =>
      if name = other then (name, value) :: rest
      else if name < other then (name, value) :: (other, v) :: rest
      else (other, v) :: insert name value rest

/-- The fields of a list of pairs; of two pairs with one name the later wins. -/
def ofList (pairs : List (String × Value)) : Fields :=
  pairs.foldl (fun fields pair => insert pair.1 pair.2 fields) []

/-- The field names, in order. -/
def names (fields : Fields) : List String := fields.map (·.1)

theorem get?_nil (name : String) : get? [] name = none := rfl

/-- A field that was just added holds the added value. -/
theorem get?_insert_self (name : String) (value : Value) (fields : Fields) :
    (insert name value fields).get? name = some value := by
  induction fields with
  | nil => simp [insert, get?]
  | cons field rest ih =>
    obtain ⟨other, v⟩ := field
    rw [insert]
    split
    · simp [get?]
    · split
      · simp [get?]
      · rename_i hne _
        have hb : (other == name) = false := beq_eq_false_iff_ne.2 (Ne.symm hne)
        simpa [get?, List.find?, hb] using ih

/-- Adding a field leaves the others alone. -/
theorem get?_insert_of_ne {name other : String} (value : Value) (fields : Fields)
    (h : other ≠ name) : (insert name value fields).get? other = fields.get? other := by
  have hb : (name == other) = false := beq_eq_false_iff_ne.2 (Ne.symm h)
  induction fields with
  | nil => simp [insert, get?, List.find?, hb]
  | cons field rest ih =>
    obtain ⟨key, v⟩ := field
    rw [insert]
    split
    · rename_i heq
      subst heq
      simp [get?, List.find?, hb]
    · split
      · simp [get?, List.find?, hb]
      · simp only [get?, List.find?] at ih ⊢
        split <;> simp_all

end Fields

/-! ## Accessors -/

namespace Value

/-- The kind of a value. -/
def kind : Value → Kind
  | .nil => .nil
  | .bool _ => .bool
  | .number _ => .number
  | .string _ => .string
  | .array _ => .array
  | .object _ => .object
  | .function _ => .function
  | .error _ => .error
  | .channel _ => .channel
  | .custom _ => .custom

/-- An object from unordered pairs. -/
def ofPairs (pairs : List (String × Value)) : Value := .object (Fields.ofList pairs)

/-- An error value without a source. -/
def ofMessage (message : String) : Value := .error ⟨message, none⟩

/-- An optional value, absent as `nil`. -/
def ofOption (v : Option Value) : Value := v.getD .nil

/-- An integer as a number: the nearest float. -/
def ofInt (n : Int) : Value := .number (Float.ofInt n)

def isNil : Value → Bool
  | .nil => true
  | _ => false

def bool? : Value → Option Bool
  | .bool b => some b
  | _ => none

def number? : Value → Option Float
  | .number x => some x
  | _ => none

def string? : Value → Option String
  | .string s => some s
  | _ => none

def items? : Value → Option (List Value)
  | .array items => some items
  | _ => none

def fields? : Value → Option Fields
  | .object fields => some fields
  | _ => none

def function? : Value → Option FunctionValue
  | .function f => some f
  | _ => none

/-- The value of a field, when the value is an object that has it. -/
def get? (v : Value) (name : String) : Option Value := v.fields?.bind (·.get? name)

/-- Is the value true where a script tests it?  All but `nil` and `false` are. -/
def isTruthy : Value → Bool
  | .nil => false
  | .bool b => b
  | _ => true

/-! ## Nesting -/

mutual

/-- How many aggregates the deepest path through a value visits. -/
def depth : Value → Nat
  | .array items => depthItems items + 1
  | .object fields => depthFields fields + 1
  | _ => 0

/-- The greatest depth among the elements of an array. -/
def depthItems : List Value → Nat
  | [] => 0
  | v :: rest => max v.depth (depthItems rest)

/-- The greatest depth among the fields of an object. -/
def depthFields : List (String × Value) → Nat
  | [] => 0
  | (_, v) :: rest => max v.depth (depthFields rest)

end

/-- A value inside `n` one-element arrays. -/
def inArrays (n : Nat) (v : Value) : Value := Nat.rec v (fun _ w => .array [w]) n

end Value
end ScriptPool
