import ScriptPool.Proofs.Fields
import ScriptPool.Proofs.Places
import ScriptPool.Value.Equality

/-!
# Normal forms of values

A guest has no fields that are `nil` and one kind of table, so some values cannot be told from
others there.  `Value.norm` picks one of those that look the same: `nil` fields are dropped, and an
array with `nil`s in it becomes whatever the places of the other elements make of it.

`normBy` is the same with the numbers changed on the way.  A number that stands for an integer is
an integer in the guest, and the float that is made of it again is equal to it but need not be the
same, so the normal form alone does not say exactly what comes back.

## What is here

* `ofItems`, `normBy`, `norm`.
* `IsData`, `Crosses` — the values that can be put into a guest as data.
* `normBy_normBy` — normal forms are normal.
* `same_normBy` — what is changed to equal numbers is changed to an equal value.
* `normBy_id` — a value without `nil`s in its aggregates is its own normal form.
-/

set_option autoImplicit false

namespace ScriptPool

namespace Value

/-- What an array becomes that has these elements.  If the places of those that are not `nil` are
the first ones, it is an array of them; else it is an object, with the places for names. -/
def ofItems (items : List Value) : Value :=
  let filled := present isNil 0 items
  if items.isEmpty then .array []
  else if filled.isEmpty then .object []
  else if filled.map (·.1) = List.range filled.length then .array (items.take filled.length)
  else .object (Fields.ofList (filled.map fun (i, v) => (toString (i + 1), v)))

mutual

/-- The normal form of a value, with every number `x` changed to `number x`. -/
def normBy (number : Float → Float) : Value → Value
  | .number x => .number (number x)
  | .array items => ofItems (normItems number items)
  | .object fields => .object (normFields number fields)
  | v => v

/-- The normal forms of array elements. -/
def normItems (number : Float → Float) : List Value → List Value
  | [] => []
  | v :: rest => normBy number v :: normItems number rest

/-- The normal forms of the fields that are not `nil`. -/
def normFields (number : Float → Float) : List (String × Value) → List (String × Value)
  | [] => []
  | (name, v) :: rest =>
      if v.isNil then normFields number rest
      else (name, normBy number v) :: normFields number rest

end

/-- The normal form of a value. -/
def norm (v : Value) : Value := normBy id v

/-- Data: no functions, no bytes and no objects of the guest, and every number is one.  The fields
of objects are in order, and arrays are no longer than indices go. -/
inductive IsData : Value → Prop where
  | nil : IsData .nil
  | bool (b : Bool) : IsData (.bool b)
  | number {x : Float} (h : x.isNaN = false) : IsData (.number x)
  | string (s : String) : IsData (.string s)
  | array {items : List Value} (short : items.length < 2 ^ 63) (h : ∀ v ∈ items, IsData v) :
      IsData (.array items)
  | object {fields : Fields} (sorted : fields.Sorted) (h : ∀ field ∈ fields, IsData field.2) :
      IsData (.object fields)
  | error (e : ErrorValue) : IsData (.error e)
  | channel (c : Channel) : IsData (.channel c)
  | custom {c : Custom} (bytes : ∀ data, c.payload ≠ .bytes data)
      (guest : ∀ state o, c.payload ≠ .guest state o) : IsData (.custom c)

/-- Values that cross as data: as those do, whatever the numbers in them. -/
inductive Crosses : Value → Prop where
  | nil : Crosses .nil
  | bool (b : Bool) : Crosses (.bool b)
  | number (x : Float) : Crosses (.number x)
  | string (s : String) : Crosses (.string s)
  | array {items : List Value} (short : items.length < 2 ^ 63) (h : ∀ v ∈ items, Crosses v) :
      Crosses (.array items)
  | object {fields : Fields} (sorted : fields.Sorted) (h : ∀ field ∈ fields, Crosses field.2) :
      Crosses (.object fields)
  | error (e : ErrorValue) : Crosses (.error e)
  | channel (c : Channel) : Crosses (.channel c)
  | custom {c : Custom} (bytes : ∀ data, c.payload ≠ .bytes data)
      (guest : ∀ state o, c.payload ≠ .guest state o) : Crosses (.custom c)

theorem IsData.crosses {v : Value} (h : IsData v) : Crosses v := by
  induction h with
  | nil => exact .nil
  | bool b => exact .bool b
  | number _ => exact .number _
  | string s => exact .string s
  | array short _ ih => exact .array short ih
  | object sorted _ ih => exact .object sorted ih
  | error e => exact .error e
  | channel c => exact .channel c
  | custom bytes guest => exact .custom bytes guest

/-- No aggregate in the value has a `nil` in it. -/
inductive Whole : Value → Prop where
  | leaf {v : Value} (array : ∀ items, v ≠ .array items) (object : ∀ fields, v ≠ .object fields) :
      Whole v
  | array {items : List Value} (filled : ∀ v ∈ items, v.isNil = false) (h : ∀ v ∈ items, Whole v) :
      Whole (.array items)
  | object {fields : Fields} (filled : ∀ field ∈ fields, field.2.isNil = false)
      (h : ∀ field ∈ fields, Whole field.2) : Whole (.object fields)

/-! ## What an array becomes

An array with gaps is no array in the guest.  Which form it has there is decided by the places of
the elements that are left: if they are the first ones, it is a shorter array, and an object
otherwise. -/

/-- The elements of the array that are not `nil` have the first places, or there are no elements. -/
def Leading (items : List Value) : Prop :=
  items = [] ∨ (present isNil 0 items ≠ []
    ∧ (present isNil 0 items).map (·.1) = List.range (present isNil 0 items).length)

theorem ofItems_of_leading {items : List Value} (h : Leading items) :
    ofItems items = .array ((present isNil 0 items).map (·.2)) := by
  rcases h with rfl | ⟨hne, hplaces⟩
  · rfl
  · have hitems : items.isEmpty = false := by
      rw [List.isEmpty_eq_false_iff]
      rintro rfl
      exact hne rfl
    rw [ofItems, hitems, if_neg Bool.false_ne_true, if_neg (fun h => hne (List.isEmpty_iff.1 h)),
      if_pos hplaces]
    rw [List.range_eq_range'] at hplaces
    rw [take_of_places hplaces]

theorem ofItems_of_not_leading {items : List Value} (h : ¬ Leading items) :
    ofItems items = .object (Fields.ofList
      ((present isNil 0 items).map fun place => (toString (place.1 + 1), place.2))) := by
  have hitems : items.isEmpty = false := by
    rw [List.isEmpty_eq_false_iff]
    exact fun hn => h (.inl hn)
  rw [ofItems, hitems, if_neg Bool.false_ne_true]
  by_cases hne : present isNil 0 items = []
  · rw [hne]
    rfl
  · rw [if_neg (fun hn => hne (List.isEmpty_iff.1 hn)), if_neg (fun hp => h (.inr ⟨hne, hp⟩))]

/-- An array without `nil`s stays as it is. -/
theorem ofItems_of_filled {items : List Value} (h : ∀ v ∈ items, v.isNil = false) :
    ofItems items = .array items := by
  obtain ⟨hplaces, hitems⟩ := present_of_filled h 0
  have hlen : (present isNil 0 items).length = items.length := by
    rw [← List.length_map (f := (·.2)), hitems]
  have hleading : Leading items := by
    by_cases hn : items = []
    · exact .inl hn
    · refine .inr ⟨fun hp => hn ?_, ?_⟩
      · rw [hp] at hitems
        exact hitems.symm
      · rw [hplaces, hlen, List.range_eq_range']
  rw [ofItems_of_leading hleading, hitems]

theorem leading_map {f : Value → Value} {items : List Value}
    (h : ∀ v ∈ items, (f v).isNil = v.isNil) : Leading (items.map f) ↔ Leading items := by
  rw [Leading, Leading, present_map f items h, List.length_map, List.map_map, Ne, Ne,
    List.map_eq_nil_iff, List.map_eq_nil_iff]
  rfl

/-! ## Normal forms -/

section NormBy

variable {α : Type} {number f g : Float → Float} {v : Value}

theorem isNil_ofItems (items : List Value) : (ofItems items).isNil = false := by
  by_cases h : Leading items
  · rw [ofItems_of_leading h]
    rfl
  · rw [ofItems_of_not_leading h]
    rfl

theorem isNil_normBy (number : Float → Float) (v : Value) :
    (v.normBy number).isNil = v.isNil := by
  cases v with
  | array items =>
    rw [normBy]
    exact isNil_ofItems _
  | _ => rfl

theorem normItems_eq_map (number : Float → Float) (items : List Value) :
    normItems number items = items.map (normBy number) := by
  induction items with
  | nil => rfl
  | cons v rest ih => rw [normItems, ih, List.map_cons]

theorem normFields_eq_map (number : Float → Float) (fields : Fields) :
    normFields number fields = (fields.filter fun field => !field.2.isNil).map
      fun field => (field.1, field.2.normBy number) := by
  induction fields with
  | nil => rfl
  | cons field rest ih =>
    obtain ⟨name, v⟩ := field
    rw [normFields, List.filter_cons, ih]
    cases hv : v.isNil with
    | true => rfl
    | false => rfl

/-- Fields that are not `nil` are all kept. -/
theorem normFields_of_filled {fields : Fields} (h : ∀ field ∈ fields, field.2.isNil = false) :
    normFields number fields = fields.map fun field => (field.1, field.2.normBy number) := by
  rw [normFields_eq_map, List.filter_eq_self.2]
  intro field hf
  rw [h field hf]
  rfl

theorem normBy_ofItems (number : Float → Float) (items : List Value) :
    (ofItems items).normBy number = ofItems (items.map (normBy number)) := by
  have hnil : ∀ v ∈ items, (v.normBy number).isNil = v.isNil := fun v _ => isNil_normBy number v
  have hfilled : ∀ place ∈ present isNil 0 items, place.2.isNil = false :=
    fun place hp => (of_mem_present hp).2
  by_cases h : Leading items
  · have hmap : ∀ v ∈ ((present isNil 0 items).map (·.2)).map (normBy number),
        v.isNil = false := by
      intro v hv
      obtain ⟨u, hu, rfl⟩ := List.mem_map.1 hv
      obtain ⟨place, hp, rfl⟩ := List.mem_map.1 hu
      rw [isNil_normBy, hfilled place hp]
    rw [ofItems_of_leading h, ofItems_of_leading ((leading_map hnil).2 h), normBy,
      normItems_eq_map, ofItems_of_filled hmap, present_map _ _ hnil, List.map_map, List.map_map]
    rfl
  · have hfields : ∀ field ∈ Fields.ofList
        ((present isNil 0 items).map fun place => (toString (place.1 + 1), place.2)),
        field.2.isNil = false := by
      intro field hf
      obtain ⟨place, hp, rfl⟩ := List.mem_map.1 (Fields.mem_of_mem_ofList hf)
      exact hfilled place hp
    rw [ofItems_of_not_leading h, ofItems_of_not_leading (fun hl => h ((leading_map hnil).1 hl)),
      normBy, normFields_of_filled hfields, ← Fields.ofList_map, present_map _ _ hnil,
      List.map_map, List.map_map]
    rfl

/-- Normal forms are normal: changing the numbers again is all that a second time does. -/
theorem normBy_normBy (hv : IsData v) : (v.normBy g).normBy f = v.normBy (f ∘ g) := by
  induction hv with
  | array short h ih =>
    have hmap : ∀ v ∈ _, (normBy f ∘ normBy g) v = normBy (f ∘ g) v := ih
    rw [normBy, normBy, normItems_eq_map, normItems_eq_map, normBy_ofItems, List.map_map,
      List.map_congr_left hmap]
  | object sorted h ih =>
    rename_i fields
    have hfilled : ∀ field ∈ normFields g fields, field.2.isNil = false := by
      intro field hf
      rw [normFields_eq_map] at hf
      obtain ⟨old, hold, rfl⟩ := List.mem_map.1 hf
      have hnil := (List.mem_filter.1 hold).2
      rw [isNil_normBy]
      exact Bool.not_eq_true' _ ▸ hnil
    rw [normBy, normBy, normBy, normFields_of_filled hfilled, normFields_eq_map, normFields_eq_map,
      List.map_map]
    congr 1
    refine List.map_congr_left fun field hf => ?_
    exact congrArg (Prod.mk field.1) (ih field (List.mem_filter.1 hf).1)
  | _ => rfl

/-- A value without `nil`s in its aggregates is its own normal form. -/
theorem normBy_id (hv : Whole v) : v.normBy id = v := by
  induction hv with
  | leaf array object =>
    rename_i v
    cases v with
    | array items => exact absurd rfl (array items)
    | object fields => exact absurd rfl (object fields)
    | _ => rfl
  | array filled h ih =>
    rw [normBy, normItems_eq_map, List.map_congr_left ih, List.map_id', ofItems_of_filled filled]
  | object filled h ih =>
    rw [normBy, normFields_of_filled filled]
    congr 1
    refine (List.map_congr_left fun field hf => ?_).trans (List.map_id' _)
    exact congrArg (Prod.mk field.1) (ih field hf)

/-! ## Depth -/

theorem depthItems_le_iff {items : List Value} {n : Nat} :
    depthItems items ≤ n ↔ ∀ v ∈ items, v.depth ≤ n := by
  induction items with
  | nil => exact ⟨fun _ _ h => absurd h List.not_mem_nil, fun _ => Nat.zero_le n⟩
  | cons v rest ih => rw [depthItems, Nat.max_le, ih, List.forall_mem_cons]

theorem depthFields_eq (fields : Fields) : depthFields fields = depthItems (fields.map (·.2)) := by
  induction fields with
  | nil => rfl
  | cons field rest ih => rw [depthFields, ih, List.map_cons, depthItems]

theorem depth_ofItems_le (items : List Value) : (ofItems items).depth ≤ depthItems items + 1 := by
  have hle : ∀ place ∈ present isNil 0 items, place.2.depth ≤ depthItems items := fun place hp =>
    depthItems_le_iff.1 (Nat.le_refl _) place.2 (of_mem_present hp).1
  by_cases h : Leading items
  · rw [ofItems_of_leading h, depth]
    refine Nat.succ_le_succ (depthItems_le_iff.2 fun v hv => ?_)
    obtain ⟨place, hp, rfl⟩ := List.mem_map.1 hv
    exact hle place hp
  · rw [ofItems_of_not_leading h, depth, depthFields_eq]
    refine Nat.succ_le_succ (depthItems_le_iff.2 fun v hv => ?_)
    obtain ⟨field, hf, rfl⟩ := List.mem_map.1 hv
    obtain ⟨place, hp, rfl⟩ := List.mem_map.1 (Fields.mem_of_mem_ofList hf)
    exact hle place hp

/-- Normal forms are no deeper. -/
theorem depth_normBy_le (hv : IsData v) : (v.normBy number).depth ≤ v.depth := by
  induction hv with
  | array short h ih =>
    rename_i items
    rw [normBy, normItems_eq_map, depth]
    refine Nat.le_trans (depth_ofItems_le _) (Nat.succ_le_succ (depthItems_le_iff.2 fun u hu => ?_))
    obtain ⟨v, hv, rfl⟩ := List.mem_map.1 hu
    exact Nat.le_trans (ih v hv) (depthItems_le_iff.1 (Nat.le_refl _) v hv)
  | object sorted h ih =>
    rename_i fields
    rw [normBy, depth, depth, depthFields_eq, depthFields_eq, normFields_eq_map]
    refine Nat.succ_le_succ (depthItems_le_iff.2 fun u hu => ?_)
    rw [List.map_map] at hu
    obtain ⟨field, hf, rfl⟩ := List.mem_map.1 hu
    have hf := (List.mem_filter.1 hf).1
    exact Nat.le_trans (ih field hf)
      (depthItems_le_iff.1 (Nat.le_refl _) field.2 (List.mem_map_of_mem hf))
  | _ => exact Nat.le_refl 0

/-! ## Data -/

theorem isData_ofItems {items : List Value} (short : items.length < 2 ^ 63)
    (h : ∀ v ∈ items, IsData v) : IsData (ofItems items) := by
  have hdata : ∀ place ∈ present isNil 0 items, IsData place.2 := fun place hp =>
    h place.2 (of_mem_present hp).1
  by_cases hl : Leading items
  · rw [ofItems_of_leading hl]
    refine .array ?_ fun v hv => ?_
    · rw [List.length_map]
      exact Nat.lt_of_le_of_lt (length_present_le items 0) short
    · obtain ⟨place, hp, rfl⟩ := List.mem_map.1 hv
      exact hdata place hp
  · rw [ofItems_of_not_leading hl]
    refine .object (Fields.sorted_ofList _) fun field hf => ?_
    obtain ⟨place, hp, rfl⟩ := List.mem_map.1 (Fields.mem_of_mem_ofList hf)
    exact hdata place hp

/-- Normal forms of data are data. -/
theorem isData_normBy (hnumber : ∀ x : Float, x.isNaN = false → (number x).isNaN = false)
    (hv : IsData v) : IsData (v.normBy number) := by
  induction hv with
  | nil => exact .nil
  | bool b => exact .bool b
  | number h => exact .number (hnumber _ h)
  | string s => exact .string s
  | error e => exact .error e
  | channel c => exact .channel c
  | custom bytes guest => exact .custom bytes guest
  | array short h ih =>
    rw [normBy, normItems_eq_map]
    refine isData_ofItems ?_ fun u hu => ?_
    · rw [List.length_map]
      exact short
    · obtain ⟨v, hv, rfl⟩ := List.mem_map.1 hu
      exact ih v hv
  | object sorted h ih =>
    rw [normBy, normFields_eq_map]
    refine .object ?_ fun field hf => ?_
    · exact List.pairwise_map.2 (sorted.filter _)
    · obtain ⟨old, hold, rfl⟩ := List.mem_map.1 hf
      exact ih old (List.mem_filter.1 hold).1

/-! ## Equality -/

theorem sameItems_map {φ ψ : α → Value} {items : List α}
    (h : ∀ a ∈ items, (φ a).same (ψ a) = true) :
    sameItems (items.map φ) (items.map ψ) = true := by
  induction items with
  | nil => rfl
  | cons a rest ih =>
    rw [List.map_cons, List.map_cons, sameItems, h a List.mem_cons_self,
      ih fun b hb => h b (List.mem_cons_of_mem a hb)]
    rfl

theorem sameFields_map {φ ψ : Value → Value} {fields : Fields}
    (h : ∀ field ∈ fields, (φ field.2).same (ψ field.2) = true) :
    sameFields (fields.map fun field => (field.1, φ field.2))
      (fields.map fun field => (field.1, ψ field.2)) = true := by
  induction fields with
  | nil => rfl
  | cons field rest ih =>
    rw [List.map_cons, List.map_cons, sameFields, h field List.mem_cons_self,
      ih fun other ho => h other (List.mem_cons_of_mem field ho), beq_self_eq_true]
    rfl

theorem same_ofItems_map {φ ψ : Value → Value} {items : List Value}
    (hφ : ∀ v ∈ items, (φ v).isNil = v.isNil) (hψ : ∀ v ∈ items, (ψ v).isNil = v.isNil)
    (h : ∀ v ∈ items, (φ v).same (ψ v) = true) :
    (ofItems (items.map φ)).same (ofItems (items.map ψ)) = true := by
  have hsame : ∀ place ∈ present isNil 0 items, (φ place.2).same (ψ place.2) = true :=
    fun place hp => h place.2 (of_mem_present hp).1
  by_cases hl : Leading items
  · rw [ofItems_of_leading ((leading_map hφ).2 hl), ofItems_of_leading ((leading_map hψ).2 hl),
      present_map φ items hφ, present_map ψ items hψ, List.map_map, List.map_map, same]
    exact sameItems_map hsame
  · have hfields : ∀ χ : Value → Value, (∀ v ∈ items, (χ v).isNil = v.isNil) →
        ofItems (items.map χ) = .object ((Fields.ofList ((present isNil 0 items).map
          fun place => (toString (place.1 + 1), place.2))).map fun field => (field.1, χ field.2)) := by
      intro χ hχ
      rw [ofItems_of_not_leading (fun hm => hl ((leading_map hχ).1 hm)), present_map χ items hχ,
        ← Fields.ofList_map, List.map_map, List.map_map]
      rfl
    rw [hfields φ hφ, hfields ψ hψ, same]
    refine sameFields_map fun field hf => ?_
    obtain ⟨place, hp, rfl⟩ := List.mem_map.1 (Fields.mem_of_mem_ofList hf)
    exact hsame place hp

/-- **What is changed to equal numbers is changed to an equal value.** -/
theorem same_normBy (hfg : ∀ x : Float, x.isNaN = false → (f x == g x) = true) (hv : IsData v) :
    (v.normBy f).same (v.normBy g) = true := by
  induction hv with
  | nil => rfl
  | bool b => exact beq_self_eq_true b
  | number h => exact hfg _ h
  | string s => exact beq_self_eq_true s
  | error e => exact beq_self_eq_true e.message
  | channel c =>
    exact Bool.and_eq_true_iff.2 ⟨beq_self_eq_true c.id, beq_self_eq_true c.handle⟩
  | @custom c bytes guest =>
    exact Bool.and_eq_true_iff.2 ⟨beq_self_eq_true c.tag, beq_self_eq_true c.handle⟩
  | array short h ih =>
    rw [normBy, normBy, normItems_eq_map, normItems_eq_map]
    exact same_ofItems_map (fun v _ => isNil_normBy f v) (fun v _ => isNil_normBy g v) ih
  | object sorted h ih =>
    rw [normBy, normBy, normFields_eq_map, normFields_eq_map, same]
    exact sameFields_map fun field hf => ih field (List.mem_filter.1 hf).1

end NormBy

end Value
end ScriptPool
