import ScriptPool.Proofs.Value.Norm

/-!
# Values leaf by leaf

A value is a tree whose inner nodes are arrays and objects.  What a conversion does to it is mostly
said of its leaves: the form stays, and every leaf becomes something.

## What is here

* `Leaves` — all leaves of a value have a property.
* `Leafwise` — two values have the same form, and their leaves are related.
* `norm_array`, `norm_object` — the normal form of an aggregate, in terms of its elements.
* `Leafwise.whole` — what is leaf by leaf like a value without `nil`s in its aggregates is one too.
-/

set_option autoImplicit false

namespace ScriptPool
namespace Value

/-- Neither an array nor an object. -/
def IsLeaf : Value → Prop
  | .array _ => False
  | .object _ => False
  | _ => True

/-- All leaves of a value have a property.  The fields of objects are in order, and arrays are no
longer than indices go. -/
inductive Leaves (P : Value → Prop) : Value → Prop where
  | leaf {x : Value} (hx : x.IsLeaf) (h : P x) : Leaves P x
  | array {items : List Value} (short : items.length < 2 ^ 63) (h : ∀ x ∈ items, Leaves P x) :
      Leaves P (.array items)
  | object {fields : Fields} (sorted : fields.Sorted) (h : ∀ field ∈ fields, Leaves P field.2) :
      Leaves P (.object fields)

/-- Two values have the same form, and their leaves are related. -/
inductive Leafwise (R : Value → Value → Prop) : Value → Value → Prop where
  | leaf {x z : Value} (hx : x.IsLeaf) (hz : z.IsLeaf) (h : R x z) : Leafwise R x z
  | array {xs zs : List Value} (length : xs.length = zs.length)
      (items : ∀ (i : Nat) (x z : Value), xs[i]? = some x → zs[i]? = some z → Leafwise R x z) :
      Leafwise R (.array xs) (.array zs)
  | object {xs zs : Fields} (names : xs.map (·.1) = zs.map (·.1))
      (fields : ∀ (i : Nat) (a b : String × Value), xs[i]? = some a → zs[i]? = some b →
        Leafwise R a.2 b.2) :
      Leafwise R (.object xs) (.object zs)

variable {P Q : Value → Prop} {R : Value → Value → Prop} {x z : Value}

theorem depth_of_isLeaf (h : x.IsLeaf) : x.depth = 0 := by
  cases x with
  | array items => exact h.elim
  | object fields => exact h.elim
  | _ => rfl

theorem norm_of_isLeaf (h : x.IsLeaf) : x.norm = x := by
  cases x with
  | array items => exact h.elim
  | object fields => exact h.elim
  | _ => rfl

theorem Leaves.mono (h : Leaves P x) (hPQ : ∀ y, y.IsLeaf → P y → Q y) : Leaves Q x := by
  induction h with
  | leaf hx h => exact .leaf hx (hPQ _ hx h)
  | array short _ ih => exact .array short ih
  | object sorted _ ih => exact .object sorted ih

/-- Lists that go together do so in every place. -/
theorem of_forall₂ {α β : Type} {S : α → β → Prop} {xs : List α} {zs : List β}
    (h : List.Forall₂ S xs zs) : ∀ (i : Nat) (a : α) (b : β), xs[i]? = some a → zs[i]? = some b →
      S a b := by
  induction h with
  | nil => exact fun i a b ha _ => absurd ha (by simp)
  | cons hab _ ih =>
    intro i a b ha hb
    cases i with
    | zero =>
      obtain rfl := Option.some.inj ha
      obtain rfl := Option.some.inj hb
      exact hab
    | succ i => exact ih i a b ha hb

theorem leafwise_array {xs zs : List Value} (h : List.Forall₂ (Leafwise R) xs zs) :
    Leafwise R (.array xs) (.array zs) := .array h.length_eq (of_forall₂ h)

theorem leafwise_object {xs zs : Fields}
    (h : List.Forall₂ (fun a b => b.1 = a.1 ∧ Leafwise R a.2 b.2) xs zs) :
    Leafwise R (.object xs) (.object zs) := by
  refine .object ?_ fun i a b ha hb => (of_forall₂ h i a b ha hb).2
  have hnames : List.Forall₂ (· = ·) (xs.map (·.1)) (zs.map (·.1)) := by
    rw [List.forall₂_map_left_iff, List.forall₂_map_right_iff]
    exact h.imp fun _ _ hab => hab.1.symm
  rwa [List.forall₂_eq_eq_eq] at hnames

theorem Leafwise.isNil (h : Leafwise R x z) (hR : ∀ x z, R x z → z.isNil = x.isNil) :
    z.isNil = x.isNil := by
  cases h with
  | leaf _ _ h => exact hR _ _ h
  | array => rfl
  | object => rfl

theorem Leafwise.mono {S : Value → Value → Prop} (h : Leafwise R x z)
    (hRS : ∀ x z, R x z → S x z) : Leafwise S x z := by
  induction h with
  | leaf hx hz h => exact .leaf hx hz (hRS _ _ h)
  | array length _ ih => exact .array length ih
  | object names _ ih => exact .object names ih

/-- How the leaves are related may depend on what is known of them. -/
theorem Leafwise.mono_of_leaves {S : Value → Value → Prop} (hx : x.Leaves P)
    (hRS : ∀ y z, P y → R y z → S y z) : ∀ {z : Value}, Leafwise R x z → Leafwise S x z := by
  induction hx with
  | leaf hx hP =>
    intro z h
    cases h with
    | leaf hx hz h => exact .leaf hx hz (hRS _ _ hP h)
    | array => exact hx.elim
    | object => exact hx.elim
  | array _ _ ih =>
    intro z h
    cases h with
    | leaf hx => exact hx.elim
    | array length items =>
      exact .array length fun i a b ha hb => ih a (List.mem_of_getElem? ha) (items i a b ha hb)
  | object _ _ ih =>
    intro z h
    cases h with
    | leaf hx => exact hx.elim
    | object names fields =>
      exact .object names fun i a b ha hb => ih a (List.mem_of_getElem? ha) (fields i a b ha hb)

theorem IsData.leaves (h : x.IsData) : x.Leaves IsData := by
  induction h with
  | nil => exact .leaf trivial .nil
  | bool b => exact .leaf trivial (.bool b)
  | number h => exact .leaf trivial (.number h)
  | string s => exact .leaf trivial (.string s)
  | array short _ ih => exact .array short ih
  | object sorted _ ih => exact .object sorted ih
  | error e => exact .leaf trivial (.error e)
  | channel c => exact .leaf trivial (.channel c)
  | custom bytes guest => exact .leaf trivial (.custom bytes guest)

/-! ## Normal forms -/

theorem norm_array (items : List Value) : (Value.array items).norm = ofItems (items.map norm) := by
  rw [norm, normBy, normItems_eq_map]
  rfl

theorem norm_object (fields : Fields) : (Value.object fields).norm
    = .object ((fields.filter fun field => !field.2.isNil).map
      fun field => (field.1, field.2.norm)) := by
  rw [norm, normBy, normFields_eq_map]
  rfl

theorem isNil_norm (x : Value) : x.norm.isNil = x.isNil := isNil_normBy id x

theorem exists_getElem? {α β : Type} {xs : List α} {zs : List β} (h : xs.length = zs.length)
    {b : β} (hb : b ∈ zs) : ∃ (i : Nat) (a : α), xs[i]? = some a ∧ zs[i]? = some b := by
  obtain ⟨i, hi⟩ := List.mem_iff_getElem?.1 hb
  have hlt : i < xs.length := h ▸ (List.getElem?_eq_some_iff.1 hi).1
  exact ⟨i, xs[i], List.getElem?_eq_getElem hlt, hi⟩

/-- **What is leaf by leaf like a value without `nil`s in its aggregates is one too.** -/
theorem Leafwise.whole (h : Leafwise R x z) (hR : ∀ x z, R x z → z.isNil = x.isNil)
    (hx : x.Whole) : z.Whole := by
  induction h with
  | @leaf x z _ hz _ =>
    exact .leaf (fun items heq => by rw [heq] at hz; exact hz)
      fun fields heq => by rw [heq] at hz; exact hz
  | array length items ih =>
    cases hx with
    | leaf array => exact absurd rfl (array _)
    | array filled hx =>
      refine .array (fun b hb => ?_) fun b hb => ?_
      · obtain ⟨i, a, ha, hb⟩ := exists_getElem? length hb
        rw [(items i a b ha hb).isNil hR, filled a (List.mem_of_getElem? ha)]
      · obtain ⟨i, a, ha, hb⟩ := exists_getElem? length hb
        exact ih i a b ha hb (hx a (List.mem_of_getElem? ha))
  | @object xs zs names fields ih =>
    have length : xs.length = zs.length := by
      rw [← List.length_map (f := (·.1)), names, List.length_map]
    cases hx with
    | leaf _ object => exact absurd rfl (object _)
    | object filled hx =>
      refine .object (fun b hb => ?_) fun b hb => ?_
      · obtain ⟨i, a, ha, hb⟩ := exists_getElem? length hb
        rw [(fields i a b ha hb).isNil hR, filled a (List.mem_of_getElem? ha)]
      · obtain ⟨i, a, ha, hb⟩ := exists_getElem? length hb
        exact ih i a b ha hb (hx a (List.mem_of_getElem? ha))

end Value
end ScriptPool
