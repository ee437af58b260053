import ScriptPool.Proofs.Convert.Graph
import ScriptPool.Proofs.Convert.RoundTrip

/-!
# The marker of empty arrays

All empty arrays of a guest state have the same metatable, and a table of the guest can be changed
by whoever gets hold of it.  Values without empty arrays are put in and read back as if there were
no such metatable.  Once it does not mark arrays any more, nothing that is read back has an empty
array in it, so those that go in do not come back.

## What is here

* `Value.HasEmptyArray` — and normal forms have the empty arrays of their values.
* `ignores_fromValueAt` — **without empty arrays, the marker makes no difference.**
* `GuestState.Spoiled`, `losesEmpty` — **with a marker that does not mark, no empty array comes
  back.**
* `roundTrip_iff_marksArrays` — when a value comes back as its normal form.
-/

set_option autoImplicit false

namespace ScriptPool

/-! ## Values with empty arrays -/

namespace Value

/-- There is an empty array in the value. -/
inductive HasEmptyArray : Value → Prop where
  | here : HasEmptyArray (.array [])
  | item {items : List Value} {v : Value} (h : v ∈ items) (hv : HasEmptyArray v) :
      HasEmptyArray (.array items)
  | field {fields : Fields} {field : String × Value} (h : field ∈ fields)
      (hv : HasEmptyArray field.2) : HasEmptyArray (.object fields)

variable {v : Value}

theorem HasEmptyArray.isNil (h : v.HasEmptyArray) : v.isNil = false := by
  cases h <;> rfl

/-- The elements of an array that are not `nil` are in what it becomes. -/
theorem hasEmptyArray_ofItems {items : List Value} (h : v ∈ items) (hv : v.HasEmptyArray) :
    (ofItems items).HasEmptyArray := by
  have hpresent := mem_present h hv.isNil 0
  by_cases hl : Leading items
  · rw [ofItems_of_leading hl]
    exact .item hpresent hv
  · obtain ⟨place, hp, rfl⟩ := List.mem_map.1 hpresent
    have hfield : (toString (place.1 + 1), place.2) ∈ Fields.ofList
        ((present isNil 0 items).map fun place => (toString (place.1 + 1), place.2)) := by
      rw [Fields.ofList, Fields.mem_foldl_insert _ ?_ fun _ _ => List.not_mem_nil]
      · exact .inl (List.mem_map.2 ⟨place, hp, rfl⟩)
      · rw [List.map_map]
        refine List.pairwise_map.2 (((present_places items 0).1.of_map _ fun _ _ h => h).imp ?_)
        intro a b hlt heq
        exact Nat.ne_of_lt hlt (Nat.succ.inj (GuestValue.toString_injective heq))
    rw [ofItems_of_not_leading hl]
    exact .field hfield hv

/-- **A normal form has the empty arrays of the value.** -/
theorem hasEmptyArray_normBy (f : Float → Float) (h : v.HasEmptyArray) :
    (v.normBy f).HasEmptyArray := by
  induction h with
  | here => exact .here
  | item hmem _ ih =>
    rw [normBy, normItems_eq_map]
    exact hasEmptyArray_ofItems (List.mem_map_of_mem hmem) ih
  | @field fields field hmem hv ih =>
    rw [normBy, normFields_eq_map]
    have hkept : field ∈ fields.filter fun field => !field.2.isNil :=
      List.mem_filter.2 ⟨hmem, by rw [hv.isNil, Bool.not_false]⟩
    exact .field (List.mem_map_of_mem hkept) ih

end Value

/-! ## Without empty arrays

A value without empty arrays never asks for the marker, so nothing changes if the marker is taken
out of the world.  There the general result about round trips applies. -/

namespace World

/-- The world without the marker of a guest state. -/
def unmarked (w : World) (s : Nat) : World :=
  w.modifyState s fun g => { g with arrayMarker := none }

variable (w : World) (s : Nat)

theorem state_unmarked : (w.unmarked s).state s = { w.state s with arrayMarker := none } := by
  rw [unmarked, modifyState_eq]
  by_cases hs : s < w.states.size
  · exact state_setState hs _
  · rw [setState_of_le (Nat.not_lt.1 hs), state_of_le (Nat.not_lt.1 hs)]

theorem setState_unmarked (g : GuestState) :
    (w.unmarked s).setState s { g with arrayMarker := none } = (w.setState s g).unmarked s := by
  rw [unmarked, unmarked, modifyState_eq, modifyState_eq, setState_setState, setState_setState]
  by_cases hs : s < w.states.size
  · rw [state_setState hs]
  · rw [setState_of_le (Nat.not_lt.1 hs), setState_of_le (Nat.not_lt.1 hs)]

end World

namespace Converter

variable {c : Converter} {s : Nat} {α β : Type} {x : Value}

/-- A conversion does the same without the marker. -/
def Ignores (s : Nat) (t : Conversion α) : Prop :=
  ∀ w : World, t.on (w.unmarked s) = ((t.on w).1, (t.on w).2.unmarked s)

theorem ignores_pure (a : α) : Ignores s (pure a : Conversion α) := fun _ => rfl

theorem ignores_throw_bind (e : ConvertError) (f : α → Conversion β) :
    Ignores s (throw e >>= f) := fun _ => rfl

theorem Ignores.bind {t : Conversion α} {f : α → Conversion β} (ht : Ignores s t)
    (hf : ∀ a, Ignores s (f a)) : Ignores s (t >>= f) := by
  intro w
  have hw := ht w
  rcases hr : t.on w with ⟨e | a, w'⟩
  · rw [hr] at hw
    rw [Conversion.on_bind_error hr, Conversion.on_bind_error hw]
  · rw [hr] at hw
    rw [Conversion.on_bind_ok hr, Conversion.on_bind_ok hw, hf a w']

theorem ignores_onState {f : GuestState → α × GuestState}
    (h : ∀ g, f { g with arrayMarker := none } = ((f g).1, { (f g).2 with arrayMarker := none })) :
    Ignores s (Conversion.onState s f) := by
  intro w
  rw [Conversion.on_onState, Conversion.on_onState, World.state_unmarked, h,
    World.setState_unmarked]

theorem ignores_carry (v : Value) : Ignores s (carry s v) := ignores_onState fun _ => rfl

theorem ignores_itemsFromValue {remaining : Nat} {items : List Value}
    (h : ∀ x ∈ items, Ignores s (c.fromValueAt s remaining x)) :
    Ignores s (c.itemsFromValue s remaining items) := by
  induction items with
  | nil => exact ignores_pure _
  | cons x rest ih =>
    refine (h x List.mem_cons_self).bind fun v => ?_
    exact (ih fun y hy => h y (List.mem_cons_of_mem x hy)).bind fun _ => ignores_pure _

theorem ignores_fieldsFromValue {remaining : Nat} {fields : Fields}
    (h : ∀ field ∈ fields, Ignores s (c.fromValueAt s remaining field.2)) :
    Ignores s (c.fieldsFromValue s remaining fields) := by
  induction fields with
  | nil => exact ignores_pure _
  | cons field rest ih =>
    refine (h field List.mem_cons_self).bind fun v => ?_
    exact (ih fun y hy => h y (List.mem_cons_of_mem field hy)).bind fun _ => ignores_pure _

/-- **Without empty arrays, the marker makes no difference** to how a value is put in. -/
theorem ignores_fromValueAt (hc : c.codecs = []) (hx : x.Crosses) (h : ¬ x.HasEmptyArray) :
    ∀ remaining, Ignores s (c.fromValueAt s remaining x) := by
  induction hx with
  | nil => exact fun _ => ignores_pure _
  | bool b => exact fun _ => ignores_pure _
  | number y => exact fun _ => ignores_pure _
  | string text => exact fun _ => ignores_pure _
  | @array items _ _ ih =>
    intro remaining
    have hne : items.isEmpty = false := by
      rw [List.isEmpty_eq_false_iff]
      rintro rfl
      exact h .here
    rw [fromValueAt]
    dsimp only
    split
    · exact ignores_throw_bind _ _
    · rw [hne]
      refine (ignores_itemsFromValue fun x hx => ?_).bind fun _ => ignores_onState fun _ => rfl
      exact ih x hx (fun he => h (.item hx he)) _
  | @object fields _ _ ih =>
    intro remaining
    rw [fromValueAt]
    dsimp only
    split
    · exact ignores_throw_bind _ _
    · refine (ignores_fieldsFromValue fun field hf => ?_).bind fun _ => ignores_onState fun _ => rfl
      exact ih field hf (fun he => h (.field hf he)) _
  | error e => exact fun _ => ignores_carry _
  | channel ch => exact fun _ => ignores_carry _
  | custom bytes guest =>
    intro remaining w
    show (c.customFromValue s _).on _ = _
    rw [customFromValue_carry hc bytes guest]
    show _ = (((c.customFromValue s _).on w).1, ((c.customFromValue s _).on w).2.unmarked s)
    rw [customFromValue_carry hc bytes guest]
    exact ignores_carry _ w

/-- So it comes back as its normal form, whatever has become of the marker. -/
theorem roundTrip_of_not_hasEmptyArray (hc : c.codecs = []) {w : World} (hs : s < w.states.size)
    (hx : x.Crosses) (hdepth : x.depth ≤ c.maxDepth) (h : ¬ x.HasEmptyArray) :
    ∃ w', RoundTrip c s w x (x.normBy settled) w' := by
  have hready : (w.unmarked s).Ready s := by
    refine ⟨?_, fun id hid => ?_⟩
    · rw [World.unmarked, World.modifyState_eq, World.size_setState]
      exact hs
    · rw [World.state_unmarked] at hid
      cases hid
  obtain ⟨v, w₁, hv, -, hstands⟩ := (goesIn hc hx c.maxDepth (w.unmarked s) hready).1 hdepth
  rw [ignores_fromValueAt hc hx h c.maxDepth w] at hv
  obtain ⟨hok, hw₁⟩ := Prod.mk.inj hv
  refine ⟨_, v, Prod.ext hok rfl, hstands.reads _ c.maxDepth [] ?_ hdepth fun _ h => ?_⟩
  · rw [← hw₁, World.state_unmarked]
    exact ⟨Nat.le_refl _, fun h => h, fun h => h⟩
  · exact absurd h List.not_mem_nil

end Converter

/-! ## With a marker that does not mark

The other half goes by what is read: where no table is marked, an empty table is an object, so there
is no empty array to be found in anything. -/

namespace GuestState

variable {g g' : GuestState} {m : Nat} {t : GuestTable}

/-- The marker of empty arrays has been made, and does not mark arrays any more. -/
structure Spoiled (g : GuestState) (m : Nat) : Prop where
  marker : g.arrayMarker = some m
  lt : m < g.tables.size
  unmarking : ¬ g.IsMarker m

/-- Then it is so in every heap that has grown out of this one. -/
theorem Spoiled.not_isMarker (h : g.Spoiled m) (hg : g.Extends g') : ¬ g'.IsMarker m := by
  rintro ⟨t, ht, hfield⟩
  have hm := Array.getElem?_eq_getElem h.lt
  rw [hg.tables hm] at ht
  cases ht
  exact h.unmarking ⟨_, hm, hfield⟩

theorem Spoiled.mono (h : g.Spoiled m) (hg : g.Extends g') (heq : g'.arrayMarker = g.arrayMarker) :
    g'.Spoiled m :=
  ⟨heq.trans h.marker, Nat.lt_of_lt_of_le h.lt hg.size, h.not_isMarker hg⟩

theorem Spoiled.arrayMarkerTable (h : g.Spoiled m) : g.arrayMarkerTable = (m, g) := by
  rw [GuestState.arrayMarkerTable, h.marker]

/-- A table that has the marker is not marked by it. -/
theorem Spoiled.isMarkedArray (h : g.Spoiled m) (hg : g.Extends g') (ht : t.metatable = some m) :
    g'.isMarkedArray t ≠ .ok true := by
  intro hmarked
  rw [GuestState.isMarkedArray, ht] at hmarked
  dsimp only at hmarked
  have hm := hg.tables (Array.getElem?_eq_getElem h.lt)
  refine h.not_isMarker hg ⟨g'.table m, ?_, ?_⟩
  · rwa [table_of_getElem? hm]
  · split at hmarked
    · rename_i shape hshape
      rw [hshape, eq_of_beq (Except.ok.inj hmarked)]
    · cases hmarked

theorem isMarkedArray_of_none (g : GuestState) (h : t.metatable = none) :
    g.isMarkedArray t ≠ .ok true := by
  rw [GuestState.isMarkedArray, h]
  exact fun h => by cases h

/-- A state that does not mark arrays has a marker that does not. -/
theorem exists_spoiled (hheap : g.HasMarker) (h : ¬ g.MarksArrays) : ∃ m, g.Spoiled m := by
  rw [MarksArrays, not_forall] at h
  obtain ⟨m, h⟩ := h
  obtain ⟨hm, hmarker⟩ := Classical.not_imp.1 h
  exact ⟨m, hm, hheap m hm, hmarker⟩

end GuestState

namespace Converter

variable {c : Converter} {s m : Nat} {w w' : World} {g g' : GuestState} {v : GuestValue} {x : Value}

/-- Conversions whose results have no empty arrays. -/
def withoutEmpty : Behaviour where
  Grows w w' := w'.states = w.states
  Shows _ _ x := ¬ x.HasEmptyArray
  Fails _ _ := True
  refl _ := rfl
  trans h h' := h'.trans h
  mono _ h := h

/-- What is put together from values without empty arrays has none. -/
theorem Assembled.not_hasEmptyArray {entries : List (GuestValue × GuestValue)}
    (h : Assembled (fun _ x => ¬ x.HasEmptyArray) entries x) : ¬ x.HasEmptyArray := by
  intro he
  cases he with
  | here => exact absurd h.1.1 (Nat.not_succ_le_zero 0)
  | @item items y hy he =>
    obtain ⟨⟨-, hperm⟩, hitems⟩ := h
    obtain ⟨place, hplace⟩ := List.mem_iff_getElem?.1 hy
    obtain ⟨hlt, -⟩ := List.getElem?_eq_some_iff.1 hplace
    obtain ⟨entry, hentry, hkey⟩ :=
      List.mem_map.1 (hperm.mem_iff.2 (List.mem_map_of_mem (List.mem_range.2 hlt)))
    obtain ⟨y', hy', hnot⟩ := hitems entry hentry place hkey
    exact hnot (Option.some.inj (hplace.symm.trans hy') ▸ he)
  | @field fields field hf he =>
    obtain ⟨-, hsorted, hnames, hfields⟩ := h
    obtain ⟨entry, hentry, hname⟩ := hnames field hf
    obtain ⟨y, hy, hnot⟩ := hfields entry hentry field.1 hname
    have heq := (Fields.get?_eq_some hsorted).2 hf
    rw [(Fields.get?_eq_some hsorted).2 hy] at heq
    exact hnot (Option.some.inj heq ▸ he)

/-- A value of the guest is read without empty arrays in it, in every heap that has grown out of
this one. -/
def NeverEmpty (c : Converter) (s : Nat) (g : GuestState) (v : GuestValue) : Prop :=
  ∀ (w : World) (remaining : Nat) (path : List Nat), g.Extends (w.state s) →
    withoutEmpty.Meets v w ((c.toValueAt s remaining path v).on w)

theorem NeverEmpty.mono (h : NeverEmpty c s g v) (hg : g.Extends g') : NeverEmpty c s g' v :=
  fun w remaining path hw => h w remaining path (hg.trans hw)

theorem neverEmpty_leaf (hv : ∀ id, v ≠ .table id)
    (h : ∀ w : World, g.Extends (w.state s) → (c.leafToValue s v).on w = (.ok x, w))
    (hx : ¬ x.HasEmptyArray) : NeverEmpty c s g v := by
  intro w remaining path hw
  rw [on_toValueAt_leaf hv, h w hw]
  exact ⟨rfl, hx⟩

/-- An empty table that is not marked is not read as an array. -/
theorem meets_empty {id left : Nat} {path : List Nat}
    {descend : List Nat → GuestValue → Conversion Value} (hid : id ∉ path)
    (he : ((w.state s).table id).entries = [])
    (hm : (w.state s).isMarkedArray ((w.state s).table id) ≠ .ok true) :
    withoutEmpty.Meets (.table id) w ((c.tableToValue s (left + 1) path descend id).on w) := by
  cases hmarked : (w.state s).isMarkedArray ((w.state s).table id) with
  | ok marked =>
    obtain rfl : marked = false := by
      cases marked with
      | true => exact absurd hmarked hm
      | false => rfl
    rw [on_tableToValue_empty hid (Nat.succ_ne_zero left) he hmarked]
    refine ⟨rfl, fun h => ?_⟩
    cases h with
    | field h _ => exact absurd h List.not_mem_nil
  | error f =>
    rw [on_tableToValue_unreadable hid (Nat.succ_ne_zero left) he hmarked]
    exact ⟨rfl, trivial⟩

/-- A new table is read without empty arrays, if its values are and it is not marked itself. -/
theorem neverEmpty_newTable (hc : c.codecs = []) {t : GuestTable}
    (hmarked : ∀ g', g.Extends g' → g'.isMarkedArray t ≠ .ok true) (hnames : HasNames t.entries)
    (h : ∀ entry ∈ t.entries, NeverEmpty c s g entry.2) :
    NeverEmpty c s (g.newTable t).2 (.table (g.newTable t).1) := by
  intro w remaining path hw
  have hg := GuestState.extends_newTable g t
  have htable : (w.state s).table (g.newTable t).1 = t :=
    GuestState.table_of_getElem? (hw.tables (GuestState.getElem?_newTable g t))
  by_cases hid : (g.newTable t).1 ∈ path
  · rw [on_toValueAt_circular hc hid]
    exact ⟨rfl, trivial⟩
  · cases remaining with
    | zero =>
      rw [toValueAt_table_zero hc, on_tableToValue_tooDeep hid]
      exact ⟨rfl, trivial⟩
    | succ left =>
      rw [toValueAt_table_succ hc]
      by_cases he : t.entries = []
      · refine meets_empty hid (htable.symm ▸ he) ?_
        rw [htable]
        exact hmarked _ (hg.trans hw)
      · rw [on_tableToValue_entries hid (Nat.succ_ne_zero left) (htable.symm ▸ he), htable]
        have hmeets : withoutEmpty.MeetsAll (c.toValueAt s left ((g.newTable t).1 :: path))
            t.entries w := by
          intro entry hentry w' hw'
          refine h entry hentry w' left _ ?_
          rw [World.state, hw', ← World.state]
          exact hg.trans hw
        obtain ⟨hgrows, hout⟩ := entriesToValue_meets hmeets hnames
        refine ⟨hgrows, ?_⟩
        split
        · rename_i y hy
          rw [hy] at hout
          exact Assembled.not_hasEmptyArray hout
        · trivial

/-! ### Putting values in -/

/-- A guest state in a world has such a marker. -/
structure SpoiledIn (s m : Nat) (w : World) : Prop where
  lt : s < w.states.size
  state : (w.state s).Spoiled m

theorem SpoiledIn.setState (h : SpoiledIn s m w) (hg : (w.state s).Extends g)
    (heq : g.arrayMarker = (w.state s).arrayMarker) :
    SpoiledIn s m (w.setState s g) ∧ (w.state s).Extends ((w.setState s g).state s) := by
  rw [World.state_setState h.lt]
  refine ⟨⟨?_, ?_⟩, hg⟩
  · rw [World.size_setState]
    exact h.lt
  · rw [World.state_setState h.lt]
    exact h.state.mono hg heq

/-- Whatever a value becomes when it is put into such a state, it is read without empty arrays. -/
def LosesEmpty (c : Converter) (s m : Nat) (x : Value) : Prop :=
  ∀ {remaining : Nat} {w w' : World} {v : GuestValue}, SpoiledIn s m w →
    (c.fromValueAt s remaining x).on w = (.ok v, w') →
    SpoiledIn s m w' ∧ (w.state s).Extends (w'.state s) ∧ NeverEmpty c s (w'.state s) v

/-- A value that is not an aggregate and becomes a plain one. -/
theorem losesEmpty_plain {y : Value} (hv : ∀ id, v ≠ .table id)
    (hfrom : ∀ remaining, c.fromValueAt s remaining x = pure v)
    (hto : ∀ w : World, (c.leafToValue s v).on w = (.ok y, w)) (hy : ¬ y.HasEmptyArray) :
    LosesEmpty c s m x := by
  intro remaining w w' v' hw hon
  rw [hfrom, Conversion.on_pure] at hon
  cases hon
  exact ⟨hw, .refl _, neverEmpty_leaf hv (fun w _ => hto w) hy⟩

theorem losesEmpty_carried (hfrom : ∀ remaining w,
    (c.fromValueAt s remaining x).on w = (carry s x).on w) (hx : ¬ x.HasEmptyArray) :
    LosesEmpty c s m x := by
  intro remaining w w' v hw hon
  rw [hfrom, carry, Conversion.on_onState] at hon
  cases hon
  obtain ⟨hw', hgrows⟩ :=
    hw.setState (GuestState.extends_newUserdata (w.state s) (.carrier x)) rfl
  refine ⟨hw', hgrows, neverEmpty_leaf (fun id h => by cases h) (fun w₁ hw₁ => ?_) hx⟩
  rw [World.state_setState hw.lt] at hw₁
  exact leafToValue_carried (GuestState.carried?_of_getElem?
    (hw₁.userdata Array.getElem?_push_size))

theorem itemsFromValue_neverEmpty {remaining : Nat} {items : List Value}
    (h : ∀ x ∈ items, LosesEmpty c s m x) : ∀ {w w' : World} {values : List GuestValue},
      SpoiledIn s m w → (c.itemsFromValue s remaining items).on w = (.ok values, w') →
      SpoiledIn s m w' ∧ (w.state s).Extends (w'.state s) ∧ values.length = items.length
        ∧ ∀ v ∈ values, NeverEmpty c s (w'.state s) v := by
  induction items with
  | nil =>
    intro w w' values hw hon
    cases hon
    exact ⟨hw, .refl _, rfl, fun _ h => absurd h List.not_mem_nil⟩
  | cons x rest ih =>
    intro w w' values hw hon
    rw [itemsFromValue] at hon
    obtain ⟨v, w₁, hv, hon⟩ := Conversion.exists_of_on_bind hon
    obtain ⟨hw₁, hgrows, hnever⟩ := h x List.mem_cons_self hw hv
    obtain ⟨others, w₂, hothers, hon⟩ := Conversion.exists_of_on_bind hon
    obtain ⟨hw₂, hgrows', hlen, hall⟩ := ih (fun y hy => h y (List.mem_cons_of_mem x hy)) hw₁ hothers
    cases hon
    refine ⟨hw₂, hgrows.trans hgrows', congrArg Nat.succ hlen, fun v' hv' => ?_⟩
    rcases List.mem_cons.1 hv' with rfl | hv'
    · exact hnever.mono hgrows'
    · exact hall v' hv'

/-- A table that is made of values in such a state. -/
theorem SpoiledIn.onState_newTable (hw : SpoiledIn s m w) (hc : c.codecs = []) {t : GuestTable}
    (hmarked : ∀ g', (w.state s).Extends g' → g'.isMarkedArray t ≠ .ok true)
    (hnames : HasNames t.entries) (h : ∀ entry ∈ t.entries, NeverEmpty c s (w.state s) entry.2)
    (hon : (.ok (.table ((w.state s).newTable t).1), w.setState s ((w.state s).newTable t).2)
      = ((.ok v, w') : Except ConvertError GuestValue × World)) :
    SpoiledIn s m w' ∧ (w.state s).Extends (w'.state s) ∧ NeverEmpty c s (w'.state s) v := by
  cases hon
  obtain ⟨hw', hgrows⟩ := hw.setState (GuestState.extends_newTable (w.state s) t) rfl
  refine ⟨hw', hgrows, ?_⟩
  rw [World.state_setState hw.lt]
  exact neverEmpty_newTable hc hmarked hnames h

theorem losesEmpty_array (hc : c.codecs = []) {items : List Value} (short : items.length < 2 ^ 63)
    (h : ∀ x ∈ items, LosesEmpty c s m x) : LosesEmpty c s m (.array items) := by
  intro remaining w w' v hw hon
  rw [fromValueAt] at hon
  dsimp only at hon
  split at hon
  · cases hon
  · obtain ⟨values, w₁, hvalues, hon⟩ := Conversion.exists_of_on_bind hon
    obtain ⟨hw₁, hgrows, hlen, hall⟩ := itemsFromValue_neverEmpty h hw hvalues
    rw [Conversion.on_onState] at hon
    have hnames : HasNames (GuestTable.ofSequence values).entries :=
      hasNames_ofSequence (hlen ▸ short)
    have hentries : ∀ entry ∈ (GuestTable.ofSequence values).entries,
        NeverEmpty c s (w₁.state s) entry.2 := by
      intro entry he
      rw [GuestTable.entries_ofSequence (hlen ▸ short)] at he
      obtain ⟨place, hp, rfl⟩ := List.mem_map.1 he
      exact hall _ (of_mem_present hp).1
    suffices hnew : SpoiledIn s m w' ∧ (w₁.state s).Extends (w'.state s)
        ∧ NeverEmpty c s (w'.state s) v from ⟨hnew.1, hgrows.trans hnew.2.1, hnew.2.2⟩
    cases hempty : items.isEmpty with
    | true =>
      rw [hempty, if_pos rfl, hw₁.state.arrayMarkerTable] at hon
      exact hw₁.onState_newTable hc (t := { GuestTable.ofSequence values with metatable := some m })
        (fun g' hg' => hw₁.state.isMarkedArray hg' rfl) hnames hentries hon
    | false =>
      rw [hempty, if_neg Bool.false_ne_true] at hon
      exact hw₁.onState_newTable hc (fun g' _ => g'.isMarkedArray_of_none rfl) hnames hentries hon

theorem losesEmpty_object (hc : c.codecs = []) {fields : Fields} (sorted : fields.Sorted)
    (h : ∀ field ∈ fields, LosesEmpty c s m field.2) : LosesEmpty c s m (.object fields) := by
  intro remaining w w' v hw hon
  rw [fromValueAt] at hon
  dsimp only at hon
  split at hon
  · cases hon
  · obtain ⟨pairs, w₁, hpairs, hon⟩ := Conversion.exists_of_on_bind hon
    rw [fieldsFromValue_on] at hpairs
    split at hpairs
    · rename_i values w₂ hvalues
      cases hpairs
      have hitems : ∀ x ∈ fields.map (·.2), LosesEmpty c s m x := fun x hx => by
        obtain ⟨field, hf, rfl⟩ := List.mem_map.1 hx
        exact h field hf
      obtain ⟨hw₁, hgrows, hlen, hall⟩ := itemsFromValue_neverEmpty hitems hw hvalues
      rw [Conversion.on_onState] at hon
      have hle : (fields.map (·.1)).length ≤ values.length := by
        rw [hlen, List.length_map, List.length_map]
      have hpairs : ((fields.map (·.1)).zip values).Pairwise fun a b => a.1 < b.1 := by
        rw [← List.pairwise_map, List.map_fst_zip hle]
        exact List.pairwise_map.2 sorted
      have hmeta : (GuestTable.ofFields ((fields.map (·.1)).zip values)).metatable = none :=
        GuestTable.add_metatable _ _
      have hentries : ∀ entry ∈ (GuestTable.ofFields ((fields.map (·.1)).zip values)).entries,
          NeverEmpty c s (w₁.state s) entry.2 := fun entry he => by
        obtain ⟨pair, hp, rfl⟩ := keys_ofFields (nodup_names hpairs) he
        exact hall _ (List.of_mem_zip hp).2
      obtain ⟨hw', hgrows', hnever⟩ := hw₁.onState_newTable hc
        (fun g' _ => g'.isMarkedArray_of_none hmeta) (hasNames_ofFields hpairs) hentries hon
      exact ⟨hw', hgrows.trans hgrows', hnever⟩
    · cases hpairs

/-- **With a marker that does not mark, no empty array comes back.** -/
theorem losesEmpty (hc : c.codecs = []) (hx : x.Crosses) : LosesEmpty c s m x := by
  induction hx with
  | nil => exact losesEmpty_plain (fun _ h => by cases h) (fun _ => rfl) (fun _ => rfl) fun h => by cases h
  | bool b => exact losesEmpty_plain (fun _ h => by cases h) (fun _ => rfl) (fun _ => rfl) fun h => by cases h
  | number y =>
    obtain ⟨n, -, hv, -⟩ | ⟨hv, -⟩ := ofNumber_cases y
    · exact losesEmpty_plain (v := .ofInt n) (fun _ h => by cases h)
        (fun _ => by rw [fromValueAt, hv]) (fun _ => rfl) fun h => by cases h
    · exact losesEmpty_plain (v := .float y) (fun _ h => by cases h)
        (fun _ => by rw [fromValueAt, hv]) (fun _ => rfl) fun h => by cases h
  | string text =>
    refine losesEmpty_plain (v := .ofString text) (y := .string text) (fun _ h => by cases h)
      (fun _ => rfl) (fun w => ?_) fun h => by cases h
    rw [GuestValue.ofString, leafToValue, GuestValue.fromUTF8?_toUTF8]
    rfl
  | array short _ ih => exact losesEmpty_array hc short ih
  | object sorted _ ih => exact losesEmpty_object hc sorted ih
  | error e => exact losesEmpty_carried (fun _ _ => rfl) fun h => by cases h
  | channel ch => exact losesEmpty_carried (fun _ _ => rfl) fun h => by cases h
  | custom bytes guest =>
    refine losesEmpty_carried (fun _ w => ?_) fun h => by cases h
    exact customFromValue_carry hc bytes guest w

theorem RoundTrip.not_hasEmptyArray {y : Value} (hc : c.codecs = []) (hs : s < w.states.size)
    (hheap : (w.state s).HasMarker) (hmarks : ¬ (w.state s).MarksArrays) (hx : x.Crosses)
    (h : RoundTrip c s w x y w') : ¬ y.HasEmptyArray := by
  obtain ⟨v, hv, hback⟩ := h
  obtain ⟨m, hm⟩ := GuestState.exists_spoiled hheap hmarks
  obtain ⟨-, -, hnever⟩ := losesEmpty hc hx ⟨hs, hm⟩ hv
  have hmeets := hnever w' c.maxDepth [] (.refl _)
  have hread : (c.toValueAt s c.maxDepth [] v).on w' = (.ok y, w') := hback
  rw [hread] at hmeets
  exact hmeets.2

/-- **When a value comes back as its normal form**: it has no empty arrays, or they are marked. -/
theorem roundTrip_iff_marksArrays (hc : c.codecs = []) (hs : s < w.states.size)
    (hheap : (w.state s).HasMarker) (hx : x.Crosses) (hdepth : x.depth ≤ c.maxDepth) :
    (∃ w', RoundTrip c s w x (x.normBy settled) w')
      ↔ (x.HasEmptyArray → (w.state s).MarksArrays) := by
  constructor
  · rintro ⟨w', htrip⟩ he
    by_contra hmarks
    exact htrip.not_hasEmptyArray hc hs hheap hmarks hx (Value.hasEmptyArray_normBy settled he)
  · intro h
    by_cases he : x.HasEmptyArray
    · obtain ⟨w', htrip, -⟩ := roundTrip_normBy hc ⟨hs, h he⟩ hx hdepth
      exact ⟨w', htrip⟩
    · exact roundTrip_of_not_hasEmptyArray hc hs hx hdepth he

end Converter
end ScriptPool
