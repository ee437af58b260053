import ScriptPool.Proofs.Decimal.Equal
import ScriptPool.Proofs.Decimal.Order
import ScriptPool.Proofs.Results
import ScriptPool.Proofs.Value.Norm
import ScriptPool.Value.Json

/-!
# Values as JSON and back

A conversion to JSON fails exactly when something in the value has no JSON form, however deep it
lies.  Where it succeeds, nothing is lost but what cannot be seen in JSON: the sign of a zero, and
that an error was one.  In the other direction, documents come back as they were when each of their
numbers is written in the one way in which the conversion would write it.

## What is here

* `Within`, `HasJson` — what occurs in a value, and what may occur in one that has a JSON form.
* `exists_toJson_iff` — **the conversion succeeds exactly on the values in which all has.**
* `IsPlain`, `same_of_toJson` — such values without errors are equal to what comes back.
* `Json.IsExact`, `toJson_ofJson` — documents that come back as they were.
* `json_roundTrip` — all of it.
-/

set_option autoImplicit false

namespace ScriptPool

namespace Fields

/-- A name in front of all others is inserted in front. -/
theorem insert_eq_cons {fields : Fields} {name : String} {value : Value}
    (h : ∀ field ∈ fields, name < field.1) :
    insert name value fields = (name, value) :: fields := by
  cases fields with
  | nil => rfl
  | cons field rest =>
    obtain ⟨first, v⟩ := field
    have hlt : name < first := h (first, v) List.mem_cons_self
    have hne : name ≠ first := fun he => String.lt_irrefl _ (he ▸ hlt)
    rw [insert, if_neg hne, if_pos hlt]

end Fields

namespace Decimal

/-- What stands for an integer is finite. -/
theorem isFinite_of_integer? {x : Float} {n : Int} (h : integer? x = some n) :
    x.isFinite = true := by
  show x.toModel.unpack.isFinite = true
  rw [integer?, read_eq] at h
  cases hx : x.toModel.unpack with
  | zero s => rfl
  | finite s m e hm => rfl
  | notANumber =>
    rw [hx] at h
    cases h
  | infinity s =>
    rw [hx] at h
    cases h

end Decimal

namespace Value

/-- Induction over values, from what is in an aggregate to the aggregate. -/
@[elab_as_elim]
theorem induction {motive : Value → Prop}
    (leaf : ∀ v : Value, (∀ items, v ≠ .array items) → (∀ fields, v ≠ .object fields) → motive v)
    (array : ∀ items : List Value, (∀ v ∈ items, motive v) → motive (.array items))
    (object : ∀ fields : Fields, (∀ field ∈ fields, motive field.2) → motive (.object fields))
    (v : Value) : motive v := by
  refine @Value.rec motive (fun items => ∀ v ∈ items, motive v)
    (fun fields => ∀ field ∈ fields, motive field.2) (fun field => motive field.2)
    ?nil ?bool ?number ?string array object ?function ?error ?channel ?custom
    ?noItems ?moreItems ?noFields ?moreFields ?field v
  case noItems => exact fun _ h => absurd h List.not_mem_nil
  case moreItems => exact fun _ _ hv hrest => List.forall_mem_cons.2 ⟨hv, hrest⟩
  case noFields => exact fun _ h => absurd h List.not_mem_nil
  case moreFields => exact fun _ _ hv hrest => List.forall_mem_cons.2 ⟨hv, hrest⟩
  case field => exact fun _ _ hv => hv
  all_goals intros; exact leaf _ (fun _ he => by cases he) (fun _ he => by cases he)

/-! ## What has a JSON form -/

/-- The value `u` occurs in another: it is that value, or occurs in one of its elements or
fields. -/
inductive Within (u : Value) : Value → Prop where
  | self : Within u u
  | item {items : List Value} {v : Value} (mem : v ∈ items) (h : Within u v) :
      Within u (.array items)
  | field {fields : Fields} {field : String × Value} (mem : field ∈ fields)
      (h : Within u field.2) : Within u (.object fields)

/-- No function, channel or custom value, nor a number that is not finite. -/
def HasJson : Value → Prop
  | .number x => x.isFinite = true
  | .function _ | .channel _ | .custom _ => False
  | _ => True

variable {P : Value → Prop}

theorem forall_within_array {items : List Value} :
    (∀ u, Within u (.array items) → P u)
      ↔ P (.array items) ∧ ∀ v ∈ items, ∀ u, Within u v → P u := by
  constructor
  · exact fun h => ⟨h _ .self, fun v hv u hu => h u (.item hv hu)⟩
  · rintro ⟨hself, hitems⟩ u hu
    cases hu with
    | self => exact hself
    | item mem hu => exact hitems _ mem u hu

theorem forall_within_object {fields : Fields} :
    (∀ u, Within u (.object fields) → P u)
      ↔ P (.object fields) ∧ ∀ field ∈ fields, ∀ u, Within u field.2 → P u := by
  constructor
  · exact fun h => ⟨h _ .self, fun field hf u hu => h u (.field hf hu)⟩
  · rintro ⟨hself, hfields⟩ u hu
    cases hu with
    | self => exact hself
    | field mem hu => exact hfields _ mem u hu

/-- Nothing but itself occurs in a value that is not an aggregate. -/
theorem forall_within_leaf {v : Value} (array : ∀ items, v ≠ .array items)
    (object : ∀ fields, v ≠ .object fields) : (∀ u, Within u v → P u) ↔ P v := by
  constructor
  · exact fun h => h v .self
  · intro h u hu
    cases hu with
    | self => exact h
    | item mem hu => exact absurd rfl (array _)
    | field mem hu => exact absurd rfl (object _)

/-! ## Converting aggregates -/

theorem itemsToJson_eq_ok {items : List Value} {js : List Json} :
    itemsToJson items = .ok js ↔ List.Forall₂ (fun v j => v.toJson = .ok j) items js := by
  induction items generalizing js with
  | nil =>
    rw [itemsToJson, List.forall₂_nil_left_iff]
    exact ⟨fun h => (Except.ok.inj h).symm, fun h => by rw [h]⟩
  | cons v rest ih =>
    rw [itemsToJson, List.forall₂_cons_left_iff]
    simp only [bind_eq_ok, ih]
    constructor
    · rintro ⟨j, hv, js, hrest, h⟩
      exact ⟨j, js, hv, hrest, (Except.ok.inj h).symm⟩
    · rintro ⟨j, js, hv, hrest, rfl⟩
      exact ⟨j, hv, js, hrest, rfl⟩

theorem fieldsToJson_eq_ok {fields : Fields} {members : List (String × Json)} :
    fieldsToJson fields = .ok members
      ↔ List.Forall₂ (fun field member => field.1 = member.1 ∧ field.2.toJson = .ok member.2)
          fields members := by
  induction fields generalizing members with
  | nil =>
    rw [fieldsToJson, List.forall₂_nil_left_iff]
    exact ⟨fun h => (Except.ok.inj h).symm, fun h => by rw [h]⟩
  | cons field rest ih =>
    obtain ⟨name, v⟩ := field
    rw [fieldsToJson, List.forall₂_cons_left_iff]
    simp only [bind_eq_ok, ih]
    constructor
    · rintro ⟨j, hv, members, hrest, h⟩
      exact ⟨(name, j), members, ⟨rfl, hv⟩, hrest, (Except.ok.inj h).symm⟩
    · rintro ⟨⟨other, j⟩, members, ⟨rfl, hv⟩, hrest, rfl⟩
      exact ⟨j, hv, members, hrest, rfl⟩

/-- All of a list can be converted if each of it can. -/
theorem exists_forall₂_iff {α β : Type} {R : α → β → Prop} {as : List α} :
    (∃ bs, List.Forall₂ R as bs) ↔ ∀ a ∈ as, ∃ b, R a b := by
  induction as with
  | nil => exact ⟨fun _ _ h => absurd h List.not_mem_nil, fun _ => ⟨[], .nil⟩⟩
  | cons a as ih =>
    rw [List.forall_mem_cons, ← ih]
    constructor
    · rintro ⟨_, hb⟩
      obtain ⟨b, bs, hb, hbs, -⟩ := List.forall₂_cons_left_iff.1 hb
      exact ⟨⟨b, hb⟩, bs, hbs⟩
    · rintro ⟨⟨b, hb⟩, bs, hbs⟩
      exact ⟨b :: bs, .cons hb hbs⟩

theorem exists_numberToJson_iff {x : Float} :
    (∃ j, numberToJson x = .ok j) ↔ x.isFinite = true := by
  rw [numberToJson]
  split
  · rename_i n hn
    refine iff_of_true ?_ (Decimal.isFinite_of_integer? hn)
    split
    · exact ⟨_, rfl⟩
    · exact ⟨_, rfl⟩
  · split
    · rename_i hx
      exact iff_of_true ⟨_, rfl⟩ hx
    · rename_i hx
      exact iff_of_false (fun ⟨j, hj⟩ => by cases hj) hx

theorem exists_toJson_array {items : List Value} :
    (∃ j, (array items).toJson = .ok j) ↔ ∀ v ∈ items, ∃ j, v.toJson = .ok j := by
  rw [← exists_forall₂_iff, toJson]
  simp only [map_eq_ok, itemsToJson_eq_ok]
  exact ⟨fun ⟨_, js, h, _⟩ => ⟨js, h⟩, fun ⟨js, h⟩ => ⟨_, js, h, rfl⟩⟩

theorem exists_toJson_object {fields : Fields} :
    (∃ j, (object fields).toJson = .ok j) ↔ ∀ field ∈ fields, ∃ j, field.2.toJson = .ok j := by
  have hmember : ∀ field : String × Value, (∃ j, field.2.toJson = .ok j)
      ↔ ∃ member : String × Json, field.1 = member.1 ∧ field.2.toJson = .ok member.2 := fun field =>
    ⟨fun ⟨j, h⟩ => ⟨(field.1, j), rfl, h⟩, fun ⟨member, _, h⟩ => ⟨member.2, h⟩⟩
  simp only [hmember]
  rw [← exists_forall₂_iff, toJson]
  simp only [map_eq_ok, fieldsToJson_eq_ok]
  exact ⟨fun ⟨_, members, h, _⟩ => ⟨members, h⟩, fun ⟨members, h⟩ => ⟨_, members, h, rfl⟩⟩

/-- **A value has a JSON form exactly if all that occurs in it has.** -/
theorem exists_toJson_iff (v : Value) :
    (∃ j, v.toJson = .ok j) ↔ ∀ u, Within u v → u.HasJson := by
  induction v using induction with
  | leaf v array object =>
    rw [forall_within_leaf array object]
    cases v with
    | number x => exact exists_numberToJson_iff
    | array items => exact absurd rfl (array items)
    | object fields => exact absurd rfl (object fields)
    | function f => exact iff_of_false (fun ⟨j, hj⟩ => by cases hj) id
    | channel c => exact iff_of_false (fun ⟨j, hj⟩ => by cases hj) id
    | custom c => exact iff_of_false (fun ⟨j, hj⟩ => by cases hj) id
    | _ => exact iff_of_true ⟨_, rfl⟩ trivial
  | array items ih =>
    rw [forall_within_array, exists_toJson_array,
      and_iff_right (show HasJson (.array items) from trivial)]
    exact forall₂_congr ih
  | object fields ih =>
    rw [forall_within_object, exists_toJson_object,
      and_iff_right (show HasJson (.object fields) from trivial)]
    exact forall₂_congr ih

/-! ## There and back

The two directions ask for different things: of a value that it is plain, and of a document that its
numbers are written as the conversion writes them.  A value comes back equal, a document as it was.
-/

/-- Values made of finite numbers, texts, booleans and `nil`.  The fields of objects are in
order. -/
inductive IsPlain : Value → Prop where
  | nil : IsPlain .nil
  | bool (b : Bool) : IsPlain (.bool b)
  | number {x : Float} (finite : x.isFinite = true) : IsPlain (.number x)
  | string (s : String) : IsPlain (.string s)
  | array {items : List Value} (h : ∀ v ∈ items, IsPlain v) : IsPlain (.array items)
  | object {fields : Fields} (sorted : fields.Sorted) (h : ∀ field ∈ fields, IsPlain field.2) :
      IsPlain (.object fields)

theorem itemsOfJson_eq_map (js : List Json) : itemsOfJson js = js.map ofJson := by
  induction js with
  | nil => rfl
  | cons j rest ih => rw [itemsOfJson, ih, List.map_cons]

/-- The members of a document that are in order become fields one by one. -/
theorem fieldsOfJson_of_sorted {members : List (String × Json)}
    (h : members.Pairwise fun a b => a.1 < b.1) :
    fieldsOfJson members = members.map fun member => (member.1, ofJson member.2) := by
  induction members with
  | nil => rfl
  | cons member rest ih =>
    obtain ⟨name, j⟩ := member
    obtain ⟨hfirst, hrest⟩ := List.pairwise_cons.1 h
    have hlt : ∀ field ∈ rest.map fun member => (member.1, ofJson member.2), name < field.1 := by
      intro field hf
      obtain ⟨member, hm, rfl⟩ := List.mem_map.1 hf
      exact hfirst member hm
    have hnew : Fields.contains (rest.map fun member => (member.1, ofJson member.2)) name
        = false := by
      rw [Bool.eq_false_iff]
      intro hc
      obtain ⟨field, hf, he⟩ := List.mem_map.1 (Fields.contains_eq_true.1 hc)
      exact String.lt_irrefl _ (he ▸ hlt field hf)
    rw [fieldsOfJson, ih hrest]
    show (if Fields.contains (rest.map fun member => (member.1, ofJson member.2)) name = true
      then _ else _) = _
    rw [hnew, if_neg Bool.false_ne_true, Fields.insert_eq_cons hlt, List.map_cons]

theorem same_of_numberToJson {x : Float} {j : Json} (h : numberToJson x = .ok j) :
    (ofJson j).same (.number x) = true := by
  have hfinite : x.isFinite = true := exists_numberToJson_iff.1 ⟨j, h⟩
  have hself : (x == x) = true := Decimal.beq_self (Decimal.isNaN_of_isFinite hfinite)
  rw [numberToJson] at h
  split at h
  · rename_i n hn
    split at h
    · cases h
      exact Decimal.ofInt_beq hn
    · cases h
      exact hself
  · rw [if_pos hfinite] at h
    cases h
    exact hself

theorem sameItems_of_forall₂ {us vs : List Value}
    (h : List.Forall₂ (fun u v => u.same v = true) us vs) : sameItems us vs = true := by
  induction h with
  | nil => rfl
  | cons h _ ih =>
    rw [sameItems, h, ih]
    rfl

theorem sameFields_of_forall₂ {as bs : Fields}
    (h : List.Forall₂ (fun a b => a.1 = b.1 ∧ a.2.same b.2 = true) as bs) :
    sameFields as bs = true := by
  induction h with
  | nil => rfl
  | @cons a b as bs h _ ih =>
    obtain ⟨name, u⟩ := a
    obtain ⟨other, v⟩ := b
    obtain ⟨rfl, hsame⟩ : name = other ∧ u.same v = true := h
    rw [sameFields, hsame, ih, beq_self_eq_true]
    rfl

/-- Plain values have plain values in them only, and all of these have a JSON form. -/
theorem IsPlain.hasJson {u v : Value} (hv : v.IsPlain) (hu : Within u v) : u.HasJson := by
  induction hu with
  | self =>
    cases hv with
    | number finite => exact finite
    | _ => trivial
  | item mem _ ih =>
    cases hv with
    | array h => exact ih (h _ mem)
  | field mem _ ih =>
    cases hv with
    | object sorted h => exact ih (h _ mem)

/-- Members stand in the order of the fields they were made from. -/
theorem sorted_of_fieldsToJson {fields : Fields} {members : List (String × Json)}
    (sorted : fields.Sorted) (h : fieldsToJson fields = .ok members) :
    members.Pairwise fun a b => a.1 < b.1 := by
  have hnames : fields.map (·.1) = members.map (·.1) := by
    rw [← List.forall₂_eq_eq_eq, List.forall₂_map_left_iff, List.forall₂_map_right_iff]
    exact (fieldsToJson_eq_ok.1 h).imp fun _ _ hm => hm.1
  have hsorted : (fields.map (·.1)).Pairwise (· < ·) := List.pairwise_map.2 sorted
  rw [hnames] at hsorted
  exact List.pairwise_map.1 hsorted

/-- **What a plain value becomes in JSON is read back as an equal value.** -/
theorem same_of_toJson {v : Value} (hv : v.IsPlain) {j : Json} (h : v.toJson = .ok j) :
    (ofJson j).same v = true := by
  induction hv generalizing j with
  | nil =>
    cases h
    rfl
  | bool b =>
    cases h
    exact beq_self_eq_true b
  | string s =>
    cases h
    exact beq_self_eq_true s
  | number finite => exact same_of_numberToJson h
  | array _ ih =>
    rw [toJson] at h
    obtain ⟨js, hjs, rfl⟩ := map_eq_ok.1 h
    rw [ofJson, itemsOfJson_eq_map, same]
    have hboth := (List.forall₂_and_left _ _).2
      ⟨fun v hv j (hj : v.toJson = .ok j) => ih v hv hj, itemsToJson_eq_ok.1 hjs⟩
    exact sameItems_of_forall₂ (List.forall₂_map_left_iff.2
      (hboth.imp fun v j hj => hj.1 j hj.2).flip)
  | object sorted _ ih =>
    rw [toJson] at h
    obtain ⟨members, hmembers, rfl⟩ := map_eq_ok.1 h
    rw [ofJson, fieldsOfJson_of_sorted (sorted_of_fieldsToJson sorted hmembers), same]
    have hboth := (List.forall₂_and_left _ _).2
      ⟨fun field hf j (hj : field.2.toJson = .ok j) => ih field hf hj, fieldsToJson_eq_ok.1 hmembers⟩
    exact sameFields_of_forall₂ (List.forall₂_map_left_iff.2
      (hboth.imp fun field member hm => ⟨hm.2.1.symm, hm.1 member.2 hm.2.2⟩).flip)

end Value

/-- Documents whose numbers are written in one way only: integers below `2^53` in magnitude as
integers, and as floats only what is finite and not integral.  The members of objects are in
order. -/
inductive Json.IsExact : Json → Prop where
  | null : IsExact .null
  | bool (b : Bool) : IsExact (.bool b)
  | integer {n : Int} (small : n.natAbs < 2 ^ 53) : IsExact (.integer n)
  | float {x : Float} (finite : x.isFinite = true) (fraction : Decimal.integer? x = none) :
      IsExact (.float x)
  | string (s : String) : IsExact (.string s)
  | array {items : List Json} (h : ∀ j ∈ items, IsExact j) : IsExact (.array items)
  | object {members : List (String × Json)} (sorted : members.Pairwise fun a b => a.1 < b.1)
      (h : ∀ member ∈ members, IsExact member.2) : IsExact (.object members)

namespace Value

/-- **An exact document comes back as it was.** -/
theorem toJson_ofJson {j : Json} (hj : j.IsExact) : (ofJson j).toJson = .ok j := by
  induction hj with
  | null => rfl
  | bool b => rfl
  | string s => rfl
  | integer small =>
    rw [ofJson, toJson, numberToJson, Decimal.integer?_ofInt small]
    exact if_pos small
  | float finite fraction =>
    rw [ofJson, toJson, numberToJson, fraction]
    exact if_pos finite
  | array _ ih =>
    rename_i items _
    have hitems : itemsToJson (items.map ofJson) = .ok items :=
      itemsToJson_eq_ok.2 (List.forall₂_map_left_iff.2 (List.forall₂_same.2 ih))
    rw [ofJson, itemsOfJson_eq_map, toJson, hitems]
    rfl
  | object sorted _ ih =>
    rename_i members _
    have hmembers : fieldsToJson (members.map fun member => (member.1, ofJson member.2))
        = .ok members :=
      fieldsToJson_eq_ok.2 (List.forall₂_map_left_iff.2
        (List.forall₂_same.2 fun member hm => ⟨rfl, ih member hm⟩))
    rw [ofJson, fieldsOfJson_of_sorted sorted, toJson, hmembers]
    rfl

/-- **Values and JSON.**  The conversion to JSON succeeds exactly when nothing without a JSON form
occurs in the value; a plain value has a JSON form, which is read back as an equal value; and an
exact document comes back as it was. -/
theorem json_roundTrip :
    (∀ v : Value, (∃ j, v.toJson = .ok j) ↔ ∀ u, Within u v → u.HasJson)
    ∧ (∀ v : Value, v.IsPlain → ∃ j, v.toJson = .ok j ∧ (ofJson j).same v = true)
    ∧ ∀ j : Json, j.IsExact → (ofJson j).toJson = .ok j := by
  refine ⟨exists_toJson_iff, fun v hv => ?_, fun j => toJson_ofJson⟩
  obtain ⟨j, hj⟩ := (exists_toJson_iff v).2 fun u hu => hv.hasJson hu
  exact ⟨j, hj, same_of_toJson hv hj⟩

/-- A function inside an array, a zero that loses its sign inside an object, and a document. -/
theorem json_roundTrip_nested :
    (¬ ∃ j, (Value.array [.bool true, .function ⟨"f", 0⟩]).toJson = .ok j)
    ∧ (∃ j, (Value.object [("a", .array [.number (-0.0), .nil]), ("b", .string "x")]).toJson = .ok j
      ∧ (ofJson j).same (.object [("a", .array [.number (-0.0), .nil]), ("b", .string "x")]) = true)
    ∧ (ofJson (.object [("n", .integer (-3)), ("x", .array [.float 0.5])])).toJson
        = .ok (.object [("n", .integer (-3)), ("x", .array [.float 0.5])]) := by
  refine ⟨fun h => ?_, json_roundTrip.2.1 _ ?plain, json_roundTrip.2.2 _ ?exact⟩
  · exact (json_roundTrip.1 _).1 h (.function ⟨"f", 0⟩)
      (.item (List.mem_cons_of_mem _ List.mem_cons_self) .self)
  case plain =>
    refine .object (by unfold Fields.Sorted; decide) fun field hf => ?_
    rcases List.mem_cons.1 hf with rfl | hf
    · refine .array fun v hv => ?_
      rcases List.mem_cons.1 hv with rfl | hv
      · exact .number (by decide +kernel)
      · exact List.mem_singleton.1 hv ▸ .nil
    · exact List.mem_singleton.1 hf ▸ .string "x"
  case exact =>
    refine .object (by decide) fun member hm => ?_
    rcases List.mem_cons.1 hm with rfl | hm
    · exact .integer (by decide)
    · refine List.mem_singleton.1 hm ▸ .array fun j hj => ?_
      exact List.mem_singleton.1 hj ▸ .float (by decide +kernel) (by decide +kernel)

end Value
end ScriptPool
