import ScriptPool.Guest.State

/-!
# What is left open of the scripting language

Not all of the language is written out here.  What is not belongs to a `Language`, and whatever is
said of guest states is said for every one:

* how the text of a script is read;
* what the functions of the library do that `ScriptPool.Guest.Builtin` does not cover.  Such a
  function is a tree of operations on the guest state, `LibraryAction`, so it can bring about
  nothing that scripts cannot bring about as well;
* which tables a collection finalizes.  That depends on what the host still holds of a state, and
  only the collector knows.
-/

set_option autoImplicit false

namespace ScriptPool

/-- What a function of the library does in one call. -/
inductive LibraryAction where
  | finish (results : List GuestValue)
  | fail (thrown : GuestValue)
  /-- Looks at the state. -/
  | look (resume : GuestState → LibraryAction)
  /-- Raw write access. -/
  | set (table : Nat) (key value : GuestValue) (resume : LibraryAction)
  | setMetatable (table : Nat) (metatable : Option Nat) (resume : LibraryAction)
  | newTable (t : GuestTable) (resume : Nat → LibraryAction)
  | newFunction (f : Closure) (guest : ∀ target c, f ≠ .trampoline target c)
      (resume : Nat → LibraryAction)
  /-- Calls a value, on the side or not, and goes on with its results or with what it throws. -/
  | call (kind : Option Aside) (f : GuestValue) (args : List GuestValue)
      (resume : Except GuestValue (List GuestValue) → LibraryAction)

/-- What is left open of the scripting language. -/
structure Language where
  /-- The script that a text stands for. -/
  read : String → Script := fun _ => [.malformed]
  /-- What a function of the library does, by its path from the globals, that is called from a chunk
  or from elsewhere. -/
  library : String → Option String → List GuestValue → LibraryAction := fun _ _ _ => .finish []
  /-- The tables that a collection finalizes, in turn: those that nothing refers to any more, from
  inside the state or from outside, and that were given a finalizer. -/
  finalized : Nat → GuestState → List Nat := fun _ _ => []
  deriving Inhabited

end ScriptPool
