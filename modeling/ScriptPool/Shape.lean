/-!
# Arrays and objects

A table of the guest has one kind of key, a canonical value has two kinds of aggregate.  A table is
an array exactly when its keys are `1, 2, …, n` for some `n ≥ 1`, in any order and each once;
everything else — gaps, zero, negative or repeated indices, named keys, and no keys at all — is an
object.

The test is linear: the keys are counted, and then ticked off in a bitmap of that length.
-/

set_option autoImplicit false

namespace ScriptPool

/-- A key as the classification sees it. -/
inductive KeyKind where
  /-- An integral key. -/
  | index (i : Int)
  /-- Any other key. -/
  | name
  deriving Repr, DecidableEq

/-- The form of a key set. -/
inductive Shape where
  /-- The keys are `1, …, length`. -/
  | array (length : Nat)
  | object
  deriving Repr, DecidableEq

namespace Shape

/-- The zero-based places of the keys, if each of them is a positive index. -/
def places? : List KeyKind → Option (List Nat)
  | [] => some []
  | .index i :: rest => if 1 ≤ i then (places? rest).map ((i - 1).toNat :: ·) else none
  | .name :: _ => none

/-- Ticks off places in a bitmap; fails on a place outside it or ticked off before. -/
def tickOff : List Nat → Array Bool → Option (Array Bool)
  | [], seen => some seen
  | place :: rest, seen =>
      match seen[place]? with
      | some false => tickOff rest (seen.set! place true)
      | _ => none

/-- The form of a key set. -/
def ofKeys (keys : List KeyKind) : Shape :=
  match places? keys with
  | none => .object
  | some [] => .object
  | some places =>
      match tickOff places (Array.replicate places.length false) with
      | some _ => .array places.length
      | none => .object

example : ofKeys [.index 3, .index 1, .index 2] = .array 3 := by decide +kernel
example : ofKeys [.index 1, .index 1, .index 2] = .object := by decide +kernel
example : ofKeys [.index 1, .index 3] = .object := by decide +kernel
example : ofKeys [] = .object := by decide +kernel

end Shape
end ScriptPool
