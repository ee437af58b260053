import Mathlib.Data.List.Nodup
import Mathlib.Data.List.Perm.Basic
import Mathlib.Data.List.Perm.Subperm
import Mathlib.Data.List.Range
import Mathlib.Data.Set.List
import ScriptPool.Shape

/-!
# What counts as an array

`Shape.ofKeys` counts the keys of a table and ticks them off in a bitmap.  What this decides is that
the keys are `1, …, n` in some order, each once, for some `n ≥ 1`.  Everything else in the project
that depends on the form of a key set goes by `ofKeys_eq_array` and `ofKeys_eq_object`.
-/

set_option autoImplicit false

namespace ScriptPool
namespace Shape

/-- The key of a place. -/
def keyOf (place : Nat) : KeyKind := .index ((place : Int) + 1)

/-- The keys `1, …, n`. -/
def indices (n : Nat) : List KeyKind := (List.range n).map keyOf

theorem keyOf_injective : Function.Injective keyOf := by
  intro a b h
  have hab : (a : Int) + 1 = b + 1 := KeyKind.index.inj h
  omega

/-- None of the keys `1, …, n` comes twice. -/
theorem nodup_of_perm {keys : List KeyKind} {n : Nat} (h : keys.Perm (indices n)) : keys.Nodup :=
  h.nodup_iff.2 (List.nodup_range.map keyOf_injective)

/-- Keys have places exactly if they are positive indices. -/
theorem places?_eq_some {keys : List KeyKind} {places : List Nat} :
    places? keys = some places ↔ keys = places.map keyOf := by
  induction keys generalizing places with
  | nil =>
    rw [places?]
    constructor
    · intro h
      rw [← Option.some.inj h]
      rfl
    · intro h
      rw [List.map_eq_nil_iff.1 h.symm]
  | cons key rest ih =>
    cases key with
    | name =>
      rw [places?]
      constructor
      · intro h
        cases h
      · intro h
        cases places with
        | nil => cases h
        | cons place places => cases (List.cons.inj h).1
    | index i =>
      rw [places?]
      constructor
      · intro h
        split at h
        · rename_i hi
          obtain ⟨ps, hps, rfl⟩ := Option.map_eq_some_iff.1 h
          rw [List.map_cons, ← ih.1 hps, keyOf]
          have hplace : ((i - 1).toNat : Int) + 1 = i := by omega
          rw [hplace]
        · cases h
      · intro h
        cases places with
        | nil => cases h
        | cons place places =>
          obtain ⟨hkey, hrest⟩ := List.cons.inj h
          have hi : i = (place : Int) + 1 := KeyKind.index.inj hkey
          have hplace : (i - 1).toNat = place := by omega
          rw [if_pos (by omega), ih.2 hrest, Option.map_some, hplace]

/-- Places can be ticked off if they differ and are all in the bitmap and free. -/
theorem isSome_tickOff {places : List Nat} {seen : Array Bool} :
    (tickOff places seen).isSome ↔ places.Nodup ∧ ∀ i ∈ places, seen[i]? = some false := by
  induction places generalizing seen with
  | nil =>
    rw [tickOff]
    exact ⟨fun _ => ⟨List.nodup_nil, fun i hi => absurd hi List.not_mem_nil⟩, fun _ => rfl⟩
  | cons place rest ih =>
    rw [tickOff, List.nodup_cons]
    cases hseen : seen[place]? with
    | none =>
      refine ⟨fun h => (Bool.false_ne_true h).elim, fun h => ?_⟩
      have hp := h.2 place List.mem_cons_self
      rw [hseen] at hp
      cases hp
    | some b =>
      cases b with
      | true =>
        refine ⟨fun h => (Bool.false_ne_true h).elim, fun h => ?_⟩
        have hp := h.2 place List.mem_cons_self
        rw [hseen] at hp
        cases hp
      | false =>
        obtain ⟨hlt, -⟩ := Array.getElem?_eq_some_iff.1 hseen
        have hset : ∀ i, (seen.set! place true)[i]? = some false ↔
            place ≠ i ∧ seen[i]? = some false := by
          intro i
          rw [Array.set!_eq_setIfInBounds]
          by_cases he : place = i
          · subst he
            rw [Array.getElem?_setIfInBounds_self_of_lt hlt]
            exact ⟨fun h => (Bool.false_ne_true (Option.some.inj h).symm).elim,
              fun h => absurd rfl h.1⟩
          · rw [Array.getElem?_setIfInBounds_ne he]
            exact ⟨fun h => ⟨he, h⟩, fun h => h.2⟩
        show (tickOff rest (seen.set! place true)).isSome ↔ _
        rw [ih]
        constructor
        · rintro ⟨hnodup, hfree⟩
          refine ⟨⟨fun hp => ((hset place).1 (hfree place hp)).1 rfl, hnodup⟩, fun i hi => ?_⟩
          rcases List.mem_cons.1 hi with rfl | hi
          · exact hseen
          · exact ((hset i).1 (hfree i hi)).2
        · rintro ⟨⟨hnot, hnodup⟩, hfree⟩
          refine ⟨hnodup, fun i hi => (hset i).2 ⟨?_, hfree i (List.mem_cons_of_mem place hi)⟩⟩
          rintro rfl
          exact hnot hi

/-- So many places can be ticked off in a bitmap of that length exactly if they are all of them. -/
theorem isSome_tickOff_replicate {places : List Nat} :
    (tickOff places (Array.replicate places.length false)).isSome
      ↔ places.Perm (List.range places.length) := by
  rw [isSome_tickOff]
  constructor
  · rintro ⟨hnodup, hfree⟩
    have hsub : places ⊆ List.range places.length := by
      intro i hi
      obtain ⟨hlt, -⟩ := Array.getElem?_eq_some_iff.1 (hfree i hi)
      rw [Array.size_replicate] at hlt
      exact List.mem_range.2 hlt
    refine (List.subperm_of_subset hnodup hsub).perm_of_length_le ?_
    rw [List.length_range]
  · intro h
    refine ⟨h.nodup_iff.2 List.nodup_range, fun i hi => ?_⟩
    have hlt := List.mem_range.1 (h.mem_iff.1 hi)
    rw [Array.getElem?_replicate, if_pos hlt]

/-- **A table is an array exactly if its keys are `1, …, n` for some `n ≥ 1`**, each once. -/
theorem ofKeys_eq_array {keys : List KeyKind} {n : Nat} :
    ofKeys keys = .array n ↔ 1 ≤ n ∧ keys.Perm (indices n) := by
  rw [ofKeys]
  constructor
  · intro h
    cases hp : places? keys with
    | none =>
      rw [hp] at h
      cases h
    | some places =>
      rw [hp] at h
      cases places with
      | nil => cases h
      | cons place rest =>
        dsimp only at h
        cases ht : tickOff (place :: rest) (Array.replicate (place :: rest).length false) with
        | none =>
          rw [ht] at h
          cases h
        | some seen =>
          rw [ht] at h
          obtain rfl : (place :: rest).length = n := Shape.array.inj h
          have hperm := isSome_tickOff_replicate.1 (Option.isSome_iff_exists.2 ⟨seen, ht⟩)
          rw [places?_eq_some.1 hp, indices]
          exact ⟨Nat.succ_le_succ (Nat.zero_le _), hperm.map keyOf⟩
  · rintro ⟨hn, hperm⟩
    -- the places of the keys are those of `1, …, n`, in another order
    obtain ⟨places, rfl⟩ : ∃ places, List.map keyOf places = keys := by
      have hmem : keys ∈ {l : List KeyKind | ∀ x ∈ l, x ∈ Set.range keyOf} := by
        intro key hkey
        obtain ⟨i, -, hi⟩ := List.mem_map.1 (hperm.mem_iff.1 hkey)
        exact ⟨i, hi⟩
      rwa [← Set.range_list_map] at hmem
    have hrange := (List.map_perm_map_iff keyOf_injective).1 hperm
    have hlen : places.length = n := by rw [hrange.length_eq, List.length_range]
    rw [places?_eq_some.2 rfl]
    cases places with
    | nil =>
      rw [← hlen] at hn
      exact absurd hn (Nat.not_succ_le_zero 0)
    | cons place rest =>
      rw [← hlen] at hrange
      obtain ⟨seen, hseen⟩ := Option.isSome_iff_exists.1 (isSome_tickOff_replicate.2 hrange)
      dsimp only
      rw [hseen, hlen]

/-- Every other table is an object. -/
theorem ofKeys_eq_object {keys : List KeyKind} :
    ofKeys keys = .object ↔ ∀ n, 1 ≤ n → ¬ keys.Perm (indices n) := by
  constructor
  · intro h n hn hp
    have harray := ofKeys_eq_array.2 ⟨hn, hp⟩
    rw [h] at harray
    cases harray
  · intro h
    cases hs : ofKeys keys with
    | object => rfl
    | array n =>
      obtain ⟨hn, hp⟩ := ofKeys_eq_array.1 hs
      exact absurd hp (h n hn)

/-- The order of the keys does not matter. -/
theorem ofKeys_perm {keys keys' : List KeyKind} (h : keys.Perm keys') :
    ofKeys keys' = ofKeys keys := by
  cases hshape : ofKeys keys with
  | array n =>
    obtain ⟨hn, hkeys⟩ := ofKeys_eq_array.1 hshape
    exact ofKeys_eq_array.2 ⟨hn, h.symm.trans hkeys⟩
  | object =>
    exact ofKeys_eq_object.2 fun n hn hkeys => ofKeys_eq_object.1 hshape n hn (h.trans hkeys)

end Shape
end ScriptPool
