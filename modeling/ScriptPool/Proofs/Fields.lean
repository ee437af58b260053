import Mathlib.Data.List.Sort
import ScriptPool.Value.Basic

/-!
# Sorted field lists

Objects keep their fields in increasing order of the names, each name once.  `Fields.insert` keeps
the order, so whatever is built up by insertions is `Sorted`, and a sorted list that is built up
again, field by field, is the same list.
-/

set_option autoImplicit false

namespace ScriptPool
namespace Fields

/-- The names increase from one field to the next. -/
def Sorted (fields : Fields) : Prop := fields.Pairwise fun a b => a.1 < b.1

theorem lt_of_not_lt {a b : String} (hne : a ≠ b) (h : ¬ a < b) : b < a := by
  by_contra hba
  exact hne (String.le_antisymm (String.not_lt.1 hba) (String.not_lt.1 h))

theorem contains_eq_true {fields : Fields} {name : String} :
    fields.contains name = true ↔ name ∈ fields.names := by
  rw [contains, names, List.any_eq_true, List.mem_map]
  constructor
  · rintro ⟨field, hf, he⟩
    exact ⟨field, hf, beq_iff_eq.1 he⟩
  · rintro ⟨field, hf, he⟩
    exact ⟨field, hf, beq_iff_eq.2 he⟩

/-- The names after an insertion. -/
theorem mem_names_insert {fields : Fields} {name other : String} {value : Value} :
    other ∈ (insert name value fields).names ↔ other = name ∨ other ∈ fields.names := by
  induction fields with
  | nil => rw [insert, names, List.map_singleton, List.mem_singleton, names, List.map_nil,
      iff_false_intro List.not_mem_nil, or_false]
  | cons field rest ih =>
    obtain ⟨first, v⟩ := field
    rw [insert]
    split
    · rename_i he
      subst he
      simp only [names, List.map_cons, List.mem_cons]
      tauto
    · split
      · simp only [names, List.map_cons, List.mem_cons]
      · simp only [names, List.map_cons, List.mem_cons] at ih ⊢
        rw [ih]
        tauto

/-- Inserting keeps the order. -/
theorem Sorted.insert {fields : Fields} (h : Sorted fields) (name : String) (value : Value) :
    Sorted (insert name value fields) := by
  induction fields with
  | nil => exact List.pairwise_singleton _ _
  | cons field rest ih =>
    obtain ⟨first, v⟩ := field
    obtain ⟨hfirst, hrest⟩ := List.pairwise_cons.1 h
    rw [Fields.insert]
    split
    · rename_i he
      subst he
      exact List.pairwise_cons.2 ⟨hfirst, hrest⟩
    · rename_i hne
      split
      · rename_i hlt
        refine List.pairwise_cons.2 ⟨fun field hf => ?_, h⟩
        rcases List.mem_cons.1 hf with rfl | hf
        · exact hlt
        · exact String.lt_trans hlt (hfirst field hf)
      · rename_i hnlt
        refine List.pairwise_cons.2 ⟨fun field hf => ?_, ih hrest⟩
        have hname : field.1 ∈ (Fields.insert name value rest).names := List.mem_map_of_mem hf
        rcases mem_names_insert.1 hname with he | hname
        · rw [he]
          exact lt_of_not_lt hne hnlt
        · obtain ⟨other, hother, he⟩ := List.mem_map.1 hname
          rw [← he]
          exact hfirst other hother

/-- A name behind all others is inserted at the end. -/
theorem insert_eq_append {fields : Fields} {name : String} {value : Value}
    (h : ∀ field ∈ fields, field.1 < name) :
    insert name value fields = fields ++ [(name, value)] := by
  induction fields with
  | nil => rfl
  | cons field rest ih =>
    obtain ⟨first, v⟩ := field
    have hlt : first < name := h (first, v) List.mem_cons_self
    have hne : name ≠ first := fun he => String.lt_irrefl _ (he ▸ hlt)
    rw [insert, if_neg hne, if_neg (String.lt_asymm hlt),
      ih fun field hf => h field (List.mem_cons_of_mem _ hf), List.cons_append]

/-- Inserting under a new name adds one field. -/
theorem mem_insert {fields : Fields} {name : String} {value : Value} (h : name ∉ fields.names)
    {field : String × Value} :
    field ∈ insert name value fields ↔ field = (name, value) ∨ field ∈ fields := by
  induction fields with
  | nil => rw [insert, List.mem_singleton, iff_false_intro List.not_mem_nil, or_false]
  | cons first rest ih =>
    obtain ⟨other, v⟩ := first
    rw [names, List.map_cons, List.mem_cons, not_or] at h
    rw [insert, if_neg h.1]
    split
    · exact List.mem_cons
    · rw [List.mem_cons, ih h.2, List.mem_cons]
      tauto

/-- What a name stands for in a sorted list is determined by membership. -/
theorem get?_eq_some {fields : Fields} (h : Sorted fields) {name : String} {value : Value} :
    fields.get? name = some value ↔ (name, value) ∈ fields := by
  rw [get?]
  induction fields with
  | nil =>
    rw [List.find?_nil, Option.map_none]
    exact ⟨fun hn => absurd hn.symm (Option.some_ne_none _), fun hm => absurd hm List.not_mem_nil⟩
  | cons field rest ih =>
    obtain ⟨first, v⟩ := field
    obtain ⟨hfirst, hrest⟩ := List.pairwise_cons.1 h
    rw [List.find?_cons]
    by_cases he : first = name
    · subst he
      rw [beq_self_eq_true]
      constructor
      · intro hv
        cases hv
        exact List.mem_cons_self
      · intro hm
        rcases List.mem_cons.1 hm with hm | hm
        · cases hm
          rfl
        · exact absurd (hfirst _ hm) (String.lt_irrefl _)
    · rw [beq_eq_false_iff_ne.2 he]
      show (Option.map _ (List.find? _ rest) = some value) ↔ _
      rw [ih hrest, List.mem_cons]
      constructor
      · exact Or.inr
      · rintro (hm | hm)
        · cases hm
          exact absurd rfl he
        · exact hm

/-- Sorted lists with the same fields are the same list. -/
theorem Sorted.eq_of_mem_iff {a b : Fields} (ha : Sorted a) (hb : Sorted b)
    (h : ∀ field, field ∈ a ↔ field ∈ b) : a = b := by
  have hasymm : Std.Asymm fun f g : String × Value => f.1 < g.1 :=
    ⟨fun _ _ => String.lt_asymm⟩
  have hantisymm : Std.Antisymm fun f g : String × Value => f.1 < g.1 :=
    ⟨fun f g hfg hgf => absurd hgf (String.lt_asymm hfg)⟩
  exact List.Pairwise.eq_of_mem_iff ha hb h

/-- The names in sorted lists are the same if they occur in both. -/
theorem Sorted.names_eq_of_mem_iff {a b : Fields} (ha : Sorted a) (hb : Sorted b)
    (h : ∀ name, name ∈ a.names ↔ name ∈ b.names) : a.names = b.names :=
  (List.pairwise_map.2 ha).eq_of_mem_iff (List.pairwise_map.2 hb) h

/-! ## Lists built up by insertions

Objects are read from texts, from tables and from other objects, and each time their fields are
inserted one by one.  What is built up that way depends on the pairs only, as long as their names
differ. -/

theorem sorted_foldl_insert (pairs : List (String × Value)) :
    ∀ {fields : Fields}, Sorted fields →
      Sorted (pairs.foldl (fun fields pair => insert pair.1 pair.2 fields) fields) := by
  induction pairs with
  | nil => exact fun h => h
  | cons pair rest ih => exact fun h => ih (h.insert pair.1 pair.2)

theorem sorted_ofList (pairs : List (String × Value)) : Sorted (ofList pairs) :=
  sorted_foldl_insert pairs List.Pairwise.nil

/-- Fields with different new names are added as they are. -/
theorem mem_foldl_insert (pairs : List (String × Value)) :
    ∀ {fields : Fields}, (pairs.map (·.1)).Nodup → (∀ pair ∈ pairs, pair.1 ∉ fields.names) →
      ∀ field, field ∈ pairs.foldl (fun fields pair => insert pair.1 pair.2 fields) fields
        ↔ field ∈ pairs ∨ field ∈ fields := by
  induction pairs with
  | nil =>
    intro fields _ _ field
    rw [List.foldl_nil, iff_false_intro List.not_mem_nil, false_or]
  | cons pair rest ih =>
    intro fields hnodup hnew field
    obtain ⟨hnot, hnodup⟩ := List.nodup_cons.1 hnodup
    have hnew' : ∀ other ∈ rest, other.1 ∉ (insert pair.1 pair.2 fields).names := by
      intro other ho hm
      rcases mem_names_insert.1 hm with he | hm
      · exact hnot (List.mem_map.2 ⟨other, ho, he⟩)
      · exact hnew other (List.mem_cons_of_mem pair ho) hm
    rw [List.foldl_cons, ih hnodup hnew', mem_insert (hnew pair List.mem_cons_self),
      List.mem_cons]
    tauto

theorem mem_of_mem_insert {fields : Fields} {name : String} {value : Value}
    {field : String × Value} (h : field ∈ insert name value fields) :
    field = (name, value) ∨ field ∈ fields := by
  induction fields with
  | nil => exact .inl (List.mem_singleton.1 h)
  | cons first rest ih =>
    obtain ⟨other, v⟩ := first
    rw [insert] at h
    split at h
    · exact (List.mem_cons.1 h).imp_right (List.mem_cons_of_mem _)
    · split at h
      · exact List.mem_cons.1 h
      · rcases List.mem_cons.1 h with rfl | h
        · exact .inr List.mem_cons_self
        · exact (ih h).imp_right (List.mem_cons_of_mem _)

/-- Nothing but the given pairs is in a list that is built up from them. -/
theorem mem_of_mem_ofList {pairs : List (String × Value)} {field : String × Value}
    (h : field ∈ ofList pairs) : field ∈ pairs := by
  have hfold : ∀ (pairs : List (String × Value)) (fields : Fields),
      field ∈ pairs.foldl (fun fields pair => insert pair.1 pair.2 fields) fields →
      field ∈ pairs ∨ field ∈ fields := by
    intro pairs
    induction pairs with
    | nil => exact fun fields h => .inr h
    | cons pair rest ih =>
      intro fields h
      rcases ih (insert pair.1 pair.2 fields) h with h | h
      · exact .inl (List.mem_cons_of_mem pair h)
      · rcases mem_of_mem_insert h with rfl | h
        · exact .inl List.mem_cons_self
        · exact .inr h
  exact (hfold pairs [] h).resolve_right List.not_mem_nil

/-- Changing the values goes along with building up. -/
theorem ofList_map (f : Value → Value) (pairs : List (String × Value)) :
    ofList (pairs.map fun pair => (pair.1, f pair.2))
      = (ofList pairs).map fun field => (field.1, f field.2) := by
  have hinsert : ∀ (name : String) (value : Value) (fields : Fields),
      insert name (f value) (fields.map fun field => (field.1, f field.2))
        = (insert name value fields).map fun field => (field.1, f field.2) := by
    intro name value fields
    induction fields with
    | nil => rfl
    | cons field rest ih =>
      obtain ⟨other, v⟩ := field
      rw [List.map_cons, insert, insert]
      split
      · rfl
      · split
        · rfl
        · rw [List.map_cons, ih]
  have hfold : ∀ (pairs : List (String × Value)) (fields : Fields),
      (pairs.map fun pair => (pair.1, f pair.2)).foldl
        (fun fields pair => insert pair.1 pair.2 fields)
        (fields.map fun field => (field.1, f field.2))
      = (pairs.foldl (fun fields pair => insert pair.1 pair.2 fields) fields).map
        fun field => (field.1, f field.2) := by
    intro pairs
    induction pairs with
    | nil => exact fun _ => rfl
    | cons pair rest ih =>
      intro fields
      rw [List.map_cons, List.foldl_cons, List.foldl_cons, hinsert]
      exact ih _
  exact hfold pairs []

theorem foldl_insert_of_sorted (pairs : List (String × Value)) :
    ∀ {fields : Fields}, Sorted (fields ++ pairs) →
      pairs.foldl (fun fields pair => insert pair.1 pair.2 fields) fields = fields ++ pairs := by
  induction pairs with
  | nil => exact fun {fields} _ => (List.append_nil fields).symm
  | cons pair rest ih =>
    intro fields h
    have hlt : ∀ field ∈ fields, field.1 < pair.1 := fun field hf =>
      (List.pairwise_append.1 h).2.2 field hf pair List.mem_cons_self
    rw [List.foldl_cons, insert_eq_append hlt]
    have h' : Sorted ((fields ++ [pair]) ++ rest) := by
      rwa [List.append_assoc, List.singleton_append]
    exact (ih h').trans (by rw [List.append_assoc, List.singleton_append])

/-- A sorted list is what its fields build up. -/
theorem ofList_of_sorted {fields : Fields} (h : Sorted fields) : ofList fields = fields :=
  foldl_insert_of_sorted fields h

end Fields
end ScriptPool
