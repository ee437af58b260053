import ScriptPool.Convert.ToValue
import ScriptPool.Proofs.Guest.Tables
import ScriptPool.Proofs.Places
import ScriptPool.Proofs.Shape

/-!
# Heaps that grow

Putting a value into a guest adds to its heap and changes nothing that is there, so a value that was
put in earlier is still what it was.  `Extends` says so of two states, and everything that is known
about a value in one of them carries over to the other.

## What is here

* `Extends` — what is in one heap is in the other, under the same reference.
* `MarksArrays` — the metatable that marks empty arrays, if it has been made, does mark them.
* `entries_ofSequence`, `entries_ofFields` — the tables that values become.
-/

set_option autoImplicit false

namespace ScriptPool
namespace GuestState

variable {g g' g'' : GuestState} {id : Nat} {t : GuestTable}

/-- What is in one heap is in the other, under the same reference. -/
structure Extends (g g' : GuestState) : Prop where
  size : g.tables.size ≤ g'.tables.size
  tables : ∀ {id : Nat} {t : GuestTable}, g.tables[id]? = some t → g'.tables[id]? = some t
  userdata : ∀ {id : Nat} {u : Userdata}, g.userdata[id]? = some u → g'.userdata[id]? = some u

theorem Extends.refl (g : GuestState) : g.Extends g := ⟨Nat.le_refl _, fun h => h, fun h => h⟩

theorem Extends.trans (h : g.Extends g') (h' : g'.Extends g'') : g.Extends g'' :=
  ⟨Nat.le_trans h.size h'.size, fun ht => h'.tables (h.tables ht),
    fun hu => h'.userdata (h.userdata hu)⟩

theorem getElem?_push_of_some {α : Type} {xs : Array α} {i : Nat} {a b : α}
    (h : xs[i]? = some a) : (xs.push b)[i]? = some a := by
  obtain ⟨hlt, -⟩ := Array.getElem?_eq_some_iff.1 h
  rw [Array.getElem?_push_lt hlt, ← h, Array.getElem?_eq_getElem hlt]

theorem extends_newTable (g : GuestState) (t : GuestTable) : g.Extends (g.newTable t).2 := by
  refine ⟨?_, getElem?_push_of_some, fun h => h⟩
  show g.tables.size ≤ (g.tables.push t).size
  rw [Array.size_push]
  exact Nat.le_succ _

theorem extends_newFunction (g : GuestState) (f : Closure) : g.Extends (g.newFunction f).2 :=
  ⟨Nat.le_refl _, fun h => h, fun h => h⟩

theorem extends_newUserdata (g : GuestState) (u : Userdata) :
    g.Extends (g.newUserdata u).2 := ⟨Nat.le_refl _, fun h => h, getElem?_push_of_some⟩

theorem getElem?_newTable (g : GuestState) (t : GuestTable) :
    (g.newTable t).2.tables[(g.newTable t).1]? = some t := Array.getElem?_push_size

theorem table_of_getElem? (h : g.tables[id]? = some t) : g.table id = t := by
  rw [table, Array.getD_eq_getD_getElem?, h]
  rfl

theorem getElem?_tables (h : id < g.tables.size) : g.tables[id]? = some (g.table id) := by
  rw [table, Array.getD_eq_getD_getElem?, Array.getElem?_eq_getElem h]
  rfl

theorem carried?_of_getElem? {v : Value} (h : g.userdata[id]? = some (.carrier v)) :
    g.carried? (.userdata id) = some v := by
  rw [carried?, h]

/-! ## The marker of empty arrays

The marker is made the first time that somebody asks for it, so before that there is none, and
afterwards it is the same for all. -/

/-- A table by which another is marked as an array. -/
def IsMarker (g : GuestState) (id : Nat) : Prop :=
  ∃ t, g.tables[id]? = some t ∧ (t.field "__shape").toHostString? = .ok (some "array")

/-- The metatable that marks empty arrays, if it has been made, does mark them. -/
def MarksArrays (g : GuestState) : Prop := ∀ id, g.arrayMarker = some id → g.IsMarker id

theorem IsMarker.mono (h : g.IsMarker id) (hg : g.Extends g') : g'.IsMarker id := by
  obtain ⟨t, ht, hfield⟩ := h
  exact ⟨t, hg.tables ht, hfield⟩

theorem MarksArrays.mono (h : g.MarksArrays) (hg : g.Extends g')
    (heq : g'.arrayMarker = g.arrayMarker) : g'.MarksArrays := fun id hid =>
  (h id (heq ▸ hid)).mono hg

theorem isMarkedArray_of_isMarker (ht : t.metatable = some id) (h : g.IsMarker id) :
    g.isMarkedArray t = .ok true := by
  obtain ⟨m, hm, hfield⟩ := h
  rw [isMarkedArray, ht]
  dsimp only
  rw [table_of_getElem? hm, hfield]
  rfl

/-- The marker is at hand after it was asked for. -/
theorem arrayMarkerTable_spec (h : g.MarksArrays) :
    g.Extends g.arrayMarkerTable.2 ∧ g.arrayMarkerTable.2.MarksArrays
      ∧ g.arrayMarkerTable.2.IsMarker g.arrayMarkerTable.1 := by
  rw [arrayMarkerTable]
  cases hm : g.arrayMarker with
  | some id => exact ⟨Extends.refl g, h, h id hm⟩
  | none =>
    let marker : GuestTable := { entries := [(.ofString "__shape", .ofString "array")] }
    have hmarker : ({ (g.newTable marker).2 with
        arrayMarker := some (g.newTable marker).1 } : GuestState).IsMarker (g.newTable marker).1 :=
      ⟨marker, getElem?_newTable g marker, rfl⟩
    have hg := extends_newTable g marker
    refine ⟨⟨hg.size, hg.tables, hg.userdata⟩, fun id hid => ?_, hmarker⟩
    rw [← Option.some.inj hid]
    exact hmarker

end GuestState

/-! ## The tables that values become -/

namespace GuestTable

/-- The elements of a sequence are under the indices of their places. -/
theorem entries_ofSequence {values : List GuestValue} (short : values.length < 2 ^ 63) :
    (ofSequence values).entries = (present GuestValue.isNil 0 values).map
      fun place => (.ofInt ((place.1 + 1 : Nat) : Int), place.2) := by
  have hindexed : ∀ (values : List GuestValue) (i : Nat), indexed (i + 1) values
      = (present GuestValue.isNil i values).map
        fun place => (.ofInt ((place.1 + 1 : Nat) : Int), place.2) := by
    intro values
    induction values with
    | nil => exact fun _ => rfl
    | cons v rest ih =>
      intro i
      cases v with
      | nil => exact ih (i + 1)
      | _ => exact congrArg (List.cons _) (ih (i + 1))
  have hall : values.length ≤ indices := Nat.le_sub_one_of_lt short
  show indexed 1 (values.take indices) = _
  rw [List.take_of_length_le hall]
  exact hindexed values 0

/-- Fields are under their names. -/
theorem entries_ofFields {fields : List (String × GuestValue)} (names : (fields.map (·.1)).Nodup) :
    (ofFields fields).entries = (fields.filter fun field => !field.2.isNil).map
      fun field => (.ofString field.1, field.2) := by
  refine entries_add ⟨fun entry he => ?_, fun entry he => ?_, ?_⟩
  · obtain ⟨field, -, rfl⟩ := List.mem_map.1 he
    rfl
  · obtain ⟨field, hf, rfl⟩ := List.mem_map.1 he
    exact Bool.not_eq_true' _ ▸ (List.mem_filter.1 hf).2
  · refine List.pairwise_map.2 (((List.pairwise_map.1 names).filter _).imp fun {a b} hne => ?_)
    refine beq_eq_false_iff_ne.2 fun heq => hne ?_
    exact String.toByteArray_inj.1 heq

end GuestTable

/-! ## Keys -/

namespace GuestValue

theorem keyKind_ofInt {place : Nat} (h : place + 1 < 2 ^ 63) :
    (ofInt ((place + 1 : Nat) : Int)).keyKind = Shape.keyOf place := by
  rw [ofInt, keyKind, Int64.toInt_ofInt_of_le (by omega) (by omega)]
  rfl

theorem fieldName_ofInt {place : Nat} (h : place + 1 < 2 ^ 63) :
    (ofInt ((place + 1 : Nat) : Int)).fieldName = .ok (toString (place + 1)) := by
  rw [ofInt, fieldName, Int64.toInt_ofInt_of_le (by omega) (by omega)]
  rfl

theorem fromUTF8?_toUTF8 (s : String) : String.fromUTF8? s.toUTF8 = some s := by
  rw [String.fromUTF8?]
  exact dif_pos s.isValidUTF8

theorem fieldName_ofString (name : String) : (ofString name).fieldName = .ok name := by
  rw [ofString, fieldName, Text.decodeLossy, fromUTF8?_toUTF8]

/-- Different numbers are written differently. -/
theorem toString_injective : Function.Injective fun n : Nat => toString n := by
  intro a b h
  have hdigits : Nat.toDigits 10 a = Nat.toDigits 10 b := String.ofList_injective h
  rw [← Nat.ofDigitChars_ten_toDigits (n := a), hdigits, Nat.ofDigitChars_ten_toDigits]

end GuestValue

end ScriptPool
