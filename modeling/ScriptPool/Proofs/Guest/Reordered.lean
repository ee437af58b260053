import ScriptPool.Convert.Codecs
import ScriptPool.Convert.ToValue
import ScriptPool.Proofs.Guest.Tables

/-!
# The order in which tables are enumerated

The entries of a table are enumerated in some order, which the language leaves open.  Two heaps are
`Reordered` if they are the same but for these orders.  What is looked up under a key does not
depend on them, so neither does whether a metatable marks arrays.

A codec reads the heap as it likes, and it might go by the order.  One that does not `IsOrderFree`:
what it makes of a value in one heap, it makes of it in the other.

## What is here

* `GuestTable.Reordered`, `GuestState.Reordered`, `World.Reordered`.
* `GuestTable.Reordered.find` — **looking a key up**.
* `Codec.IsOrderFree`, `Codec.isOrderFree_pair` — codecs that do not go by the order, and a stock
  codec that looks things up and is so.
-/

set_option autoImplicit false

namespace ScriptPool

/-- The same table, enumerated in another order. -/
structure GuestTable.Reordered (t t' : GuestTable) : Prop where
  entries : t.entries.Perm t'.entries
  metatable : t'.metatable = t.metatable

/-- The same guest state, with its tables enumerated in other orders. -/
structure GuestState.Reordered (g g' : GuestState) : Prop where
  tables : ∀ id, (g.table id).Reordered (g'.table id)
  rest : { g' with tables := g.tables } = g

/-- The same world, with the tables of all its states enumerated in other orders. -/
structure World.Reordered (w w' : World) : Prop where
  states : ∀ s, (w.state s).Reordered (w'.state s)
  rest : { w' with states := w.states } = w

/-- What a codec makes of a value does not depend on the order in which tables are enumerated. -/
def Codec.IsOrderFree (codec : Codec) : Prop :=
  ∀ (g g' : GuestState), g.Reordered g' → ∀ v claimed,
    codec.decode g v = .ok claimed → codec.decode g' v = .ok claimed

/-! ## Looking things up -/

namespace GuestTable.Reordered

variable {t t' : GuestTable} {key : GuestValue}

theorem symm (h : t.Reordered t') : t'.Reordered t := ⟨h.entries.symm, h.metatable.symm⟩

theorem has (h : t.Reordered t') : t'.has key = t.has key := h.entries.symm.any_eq

/-- **What is found under a key does not depend on the order.** -/
theorem find (h : t.Reordered t') (hkey : key.toKey? = some key) : t'.find key = t.find key := by
  cases hhas : t.has key with
  | true =>
    obtain ⟨hmem, hself⟩ := mem_of_has hkey hhas
    exact find_of_mem hkey hself (h.entries.mem_iff.1 hmem)
  | false => rw [find_eq_nil hhas, find_eq_nil (h.has.trans hhas)]

theorem field (h : t.Reordered t') (name : String) : t'.field name = t.field name := h.find rfl

end GuestTable.Reordered

namespace GuestState.Reordered

variable {g g' : GuestState}

theorem symm (h : g.Reordered g') : g'.Reordered g where
  tables id := (h.tables id).symm
  rest := by rw [← h.rest]

theorem userdata (h : g.Reordered g') : g'.userdata = g.userdata := by
  rw [← h.rest]

theorem epoch (h : g.Reordered g') : g'.epoch = g.epoch := by
  rw [← h.rest]

theorem carried? (h : g.Reordered g') (o : GuestObject) : g'.carried? o = g.carried? o := by
  cases o with
  | userdata id => rw [GuestState.carried?, GuestState.carried?, h.userdata]
  | _ => rfl

/-- Whether a table is marked as an array does not depend on the order. -/
theorem isMarkedArray (h : g.Reordered g') (id : Nat) :
    g'.isMarkedArray (g'.table id) = g.isMarkedArray (g.table id) := by
  rw [GuestState.isMarkedArray, GuestState.isMarkedArray, (h.tables id).metatable]
  cases (g.table id).metatable with
  | none => rfl
  | some m =>
    dsimp only
    rw [(h.tables m).field]

end GuestState.Reordered

/-! ## Codecs -/

namespace Codec

theorem isOrderFree_pair (tag : String) : (pair tag).IsOrderFree := by
  intro g g' h v claimed
  suffices hsame : (pair tag).decode g' v = (pair tag).decode g v by
    rw [hsame]
    exact id
  cases v with
  | table id =>
    simp only [pair, (h.tables id).metatable, (h.tables id).field]
    cases (g.table id).metatable with
    | none => rfl
    | some m => simp only [(h.tables m).field]
  | _ => rfl

end Codec

/-! ## Worlds -/

/-- Two worlds in which the states and the codecs are the same, up to order, and no codec goes by
the order. -/
structure World.Akin (w w' : World) : Prop where
  states : ∀ s, (w.state s).Reordered (w'.state s)
  codecs : w'.codecs = w.codecs
  free : ∀ codec ∈ w.codecs, codec.IsOrderFree

theorem World.Akin.symm {w w' : World} (h : w.Akin w') : w'.Akin w where
  states s := (h.states s).symm
  codecs := h.codecs.symm
  free := by
    rw [h.codecs]
    exact h.free

theorem World.Reordered.akin {w w' : World} (h : w.Reordered w')
    (hfree : ∀ codec ∈ w.codecs, codec.IsOrderFree) : w.Akin w' :=
  ⟨h.states, by rw [← h.rest], hfree⟩

end ScriptPool
