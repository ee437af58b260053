import Mathlib.Data.List.Nodup
import ScriptPool.Pool.Load

/-!
# Tables of loads

What the table of loads says about an interpreter after a loan has begun or ended, and after an
interpreter was forgotten; and which place is chosen when loads are compared.

## What is here

* `get?_begin`, `get?_finish`, `get?_remove` — **what each operation does to every entry**: to the
  one that it is for, and that it leaves the others alone.
* `FirstLeast` — the first of the least among some numbers, and `leastLoaded?_spec`: this is the
  place that is chosen.
-/

set_option autoImplicit false

namespace ScriptPool
namespace LoadTable

variable {t : LoadTable} {id id' now : Nat}

/-! ## Entries -/

theorem get?_nil (id : Nat) : get? [] id = none := rfl

theorem get?_cons (entry : Nat × LoadInfo) (t : LoadTable) (id : Nat) :
    get? (entry :: t) id = if entry.1 = id then some entry.2 else get? t id := by
  rw [get?, List.find?_cons]
  by_cases h : entry.1 = id
  · rw [if_pos h, beq_iff_eq.2 h]
    rfl
  · rw [if_neg h, beq_false_of_ne h]
    rfl

theorem get?_append (t u : LoadTable) (id : Nat) :
    get? (t ++ u) id = (get? t id).or (get? u id) := by
  induction t with
  | nil => rfl
  | cons entry t ih =>
    rw [List.cons_append, get?_cons, get?_cons, ih]
    split <;> rfl

/-- There is an entry for exactly the numbers that stand in the table. -/
theorem isSome_get? : (t.get? id).isSome = true ↔ id ∈ t.map (·.1) := by
  induction t with
  | nil => exact iff_of_false Bool.false_ne_true List.not_mem_nil
  | cons entry t ih =>
    rw [get?_cons, List.map_cons, List.mem_cons, ← ih]
    split
    · rename_i h
      exact iff_of_true rfl (.inl h.symm)
    · rename_i h
      exact ⟨.inr, fun h' => h'.resolve_left (Ne.symm h)⟩

theorem get?_modify (t : LoadTable) (id id' : Nat) (f : LoadInfo → LoadInfo) :
    (t.modify id f).get? id' = if id' = id then (t.get? id').map f else t.get? id' := by
  induction t with
  | nil => split <;> rfl
  | cons entry t ih =>
    by_cases he : entry.1 = id
    · have hcons : modify (entry :: t) id f = (id, f entry.2) :: modify t id f :=
        congrArg (· :: modify t id f) (if_pos (beq_iff_eq.2 he))
      rw [hcons, get?_cons, get?_cons, ih, he]
      by_cases hid : id = id'
      · rw [if_pos hid, if_pos hid.symm, if_pos hid, Option.map_some]
      · rw [if_neg hid, if_neg (Ne.symm hid), if_neg (Ne.symm hid), if_neg hid]
    · have hcons : modify (entry :: t) id f = entry :: modify t id f :=
        congrArg (· :: modify t id f) (if_neg (by rwa [beq_iff_eq]))
      rw [hcons, get?_cons, get?_cons, ih]
      by_cases hid : entry.1 = id'
      · rw [if_pos hid, if_pos hid, if_neg fun h => he (hid.trans h)]
      · rw [if_neg hid, if_neg hid]

/-- **A loan begins**: it is counted, and nothing else changes. -/
theorem get?_begin (t : LoadTable) (id now id' : Nat) :
    (t.begin id now).get? id'
      = if id' = id then some (((t.get? id').getD {}).start now) else t.get? id' := by
  rw [begin]
  split
  · rename_i info h
    rw [get?_modify]
    split
    · rename_i hid
      rw [hid, h]
      rfl
    · rfl
  · rename_i h
    rw [get?_append, get?_cons, get?_nil]
    by_cases hid : id' = id
    · rw [if_pos hid.symm, if_pos hid, hid, h]
      rfl
    · rw [if_neg (Ne.symm hid), if_neg hid, Option.or_none]

/-- **A loan ends**, if one has begun. -/
theorem get?_finish (t : LoadTable) (id now id' : Nat) :
    (t.finish id now).get? id'
      = if id' = id then (t.get? id').map (·.stop now) else t.get? id' :=
  get?_modify t id id' fun info => info.stop now

/-- **An interpreter is forgotten.** -/
theorem get?_remove (t : LoadTable) (id id' : Nat) :
    (t.remove id).get? id' = if id' = id then none else t.get? id' := by
  induction t with
  | nil => split <;> rfl
  | cons entry t ih =>
    rw [get?_cons, remove, List.filter_cons]
    by_cases he : entry.1 = id
    · rw [if_neg (by rw [he, bne_self_eq_false]; exact Bool.false_ne_true)]
      refine ih.trans ?_
      by_cases hid : id' = id
      · rw [if_pos hid, if_pos hid]
      · rw [if_neg hid, if_neg hid, if_neg fun h => hid (h.symm.trans he)]
    · rw [if_pos (bne_iff_ne.2 he), get?_cons]
      refine (congrArg _ ih).trans ?_
      by_cases hid : id' = id
      · rw [if_pos hid, if_pos hid, if_neg fun h => he (h.trans hid)]
      · rw [if_neg hid, if_neg hid]

/-! ## Numbers in the table -/

theorem map_fst_modify (t : LoadTable) (id : Nat) (f : LoadInfo → LoadInfo) :
    (t.modify id f).map (·.1) = t.map (·.1) := by
  rw [modify, List.map_map]
  refine List.map_congr_left fun entry _ => ?_
  rw [Function.comp_apply]
  split
  · rename_i h
    exact (beq_iff_eq.1 h).symm
  · rfl

/-- No interpreter gets a second entry. -/
theorem nodup_begin (h : (t.map (·.1)).Nodup) (id now : Nat) :
    ((t.begin id now).map (·.1)).Nodup := by
  rw [begin]
  split
  · rwa [map_fst_modify]
  · rename_i hnone
    have hnot : id ∉ t.map (·.1) := fun hm => by
      rw [← isSome_get?, hnone] at hm
      cases hm
    rw [List.map_append]
    refine List.nodup_append.2 ⟨h, List.nodup_singleton id, fun n hn m hm he => hnot ?_⟩
    obtain rfl : m = id := List.mem_singleton.1 hm
    exact he ▸ hn

theorem nodup_finish (h : (t.map (·.1)).Nodup) (id now : Nat) :
    ((t.finish id now).map (·.1)).Nodup := by
  rw [finish, map_fst_modify]
  exact h

theorem nodup_remove (h : (t.map (·.1)).Nodup) (id : Nat) : ((t.remove id).map (·.1)).Nodup :=
  h.sublist (List.filter_sublist.map _)

/-! ## The least load

The loads are compared from the front, and a later one has to be less to be preferred.  So the
induction goes along the list with the first of the least so far. -/

/-- At place `k` of a list stands `m`, which is the least number of the list, and which does not
stand before that place. -/
structure FirstLeast (l : List Nat) (k m : Nat) : Prop where
  at_place : l[k]? = some m
  least : ∀ n ∈ l, m ≤ n
  first : ∀ n ∈ l.take k, m < n

namespace FirstLeast

variable {l : List Nat} {k m : Nat}

theorem lt_length (h : FirstLeast l k m) : k < l.length :=
  (List.getElem?_eq_some_iff.1 h.at_place).1

theorem singleton (n : Nat) : FirstLeast [n] 0 n :=
  ⟨rfl, fun _ h => Nat.le_of_eq (List.mem_singleton.1 h).symm, fun _ h => absurd h List.not_mem_nil⟩

/-- One more number is compared. -/
theorem snoc (h : FirstLeast l k m) (n : Nat) :
    if n < m then FirstLeast (l ++ [n]) l.length n else FirstLeast (l ++ [n]) k m := by
  split
  · rename_i hlt
    refine ⟨by simp, fun x hx => ?_, fun x hx => ?_⟩
    · rcases List.mem_append.1 hx with hx | hx
      · exact Nat.le_trans (Nat.le_of_lt hlt) (h.least x hx)
      · exact Nat.le_of_eq (List.mem_singleton.1 hx).symm
    · rw [List.take_left] at hx
      exact Nat.lt_of_lt_of_le hlt (h.least x hx)
  · rename_i hle
    refine ⟨?_, fun x hx => ?_, fun x hx => ?_⟩
    · rw [List.getElem?_append_left h.lt_length]
      exact h.at_place
    · rcases List.mem_append.1 hx with hx | hx
      · exact h.least x hx
      · exact List.mem_singleton.1 hx ▸ Nat.not_lt.1 hle
    · rw [List.take_append_of_le_length (Nat.le_of_lt h.lt_length)] at hx
      exact h.first x hx

end FirstLeast

/-- Comparing one number after the other, with the first of the least so far at hand. -/
theorem firstLeast_leastFrom (rest : List Nat) : ∀ {l : List Nat} {best : Nat × Nat},
    FirstLeast l best.2 best.1 →
      ∃ m, FirstLeast (l ++ rest) (leastFrom l.length best rest) m := by
  induction rest with
  | nil => exact fun {l best} h => ⟨best.1, by rw [List.append_nil]; exact h⟩
  | cons n rest ih =>
    intro l best h
    have hsnoc : FirstLeast (l ++ [n]) (if n < best.1 then (n, l.length) else best).2
        (if n < best.1 then (n, l.length) else best).1 := by
      have hnext := h.snoc n
      split at hnext
      · rename_i hlt
        rw [if_pos hlt]
        exact hnext
      · rename_i hle
        rw [if_neg hle]
        exact hnext
    obtain ⟨m, hm⟩ := ih hsnoc
    rw [List.append_assoc, List.length_append] at hm
    exact ⟨m, hm⟩

/-- **The place that is chosen is that of the first with the least load** among the sample. -/
theorem leastLoaded?_spec (t : LoadTable) {ids : List Nat} (h : ids ≠ []) :
    ∃ k m, t.leastLoaded? ids = some k ∧ FirstLeast ((ids.take loadSample).map t.count) k m := by
  rw [leastLoaded?]
  split
  · rename_i hnil
    rw [List.map_eq_nil_iff, List.take_eq_nil_iff] at hnil
    exact absurd hnil (by simp [loadSample, h])
  · rename_i n rest hl
    have hfirst : FirstLeast [n] (n, 0).2 (n, 0).1 := FirstLeast.singleton n
    obtain ⟨m, hm⟩ := firstLeast_leastFrom rest hfirst
    exact ⟨_, m, rfl, hl ▸ hm⟩

end LoadTable
end ScriptPool
