import ScriptPool.Proofs.Convert.ReadBack
import ScriptPool.Proofs.Decimal.Whole
import ScriptPool.Proofs.World

/-!
# Round trips

A value that is put into a guest and read back comes back in its normal form.

What a value of the guest is read as depends on the heap, and the heap grows while a value is put
in.  So the induction on the value shows more than that what was put in is read back then: it is
read back in every heap that has grown out of the present one, and from inside any tables that are
not yet in it (`StandsFor`).  The second part is what keeps the search for cycles from finding any.

## What is here

* `settled` — a number that has been an integer of the guest on the way.
* `StandsFor`, `GoesIn` — what is shown of a value of the guest, and of putting a canonical value
  in.
* `goesIn` — all data goes in, if the limit leaves room for its depth, and stands for its normal
  form.
* `roundTrip_data` — what comes of it from the root, and of a second round trip.
-/

set_option autoImplicit false

namespace ScriptPool

/-! ## Numbers -/

/-- A number as it comes back: the float of an integer, if it stands for one that the guest has. -/
def settled (x : Float) : Float :=
  match Decimal.integer? x with
  | some n => if -(2 ^ 63) ≤ n ∧ n < 2 ^ 63 then Float.ofInt n else x
  | none => x

/-- A number comes back equal. -/
theorem settled_beq {x : Float} (h : x.isNaN = false) : (settled x == x) = true := by
  rw [settled]
  split
  · rename_i n hn
    split
    · exact Decimal.ofInt_beq hn
    · exact Decimal.beq_self h
  · exact Decimal.beq_self h

theorem isNaN_settled {x : Float} (h : x.isNaN = false) : (settled x).isNaN = false :=
  Decimal.isNaN_of_beq (settled_beq h)

/-! ## Worlds that values are put into -/

/-- Values can be put into a guest state: there is such a state, and it can mark empty arrays. -/
structure World.Ready (w : World) (s : Nat) : Prop where
  lt : s < w.states.size
  marks : (w.state s).MarksArrays

/-- Something has been put into a guest state. -/
structure World.Builds (w : World) (s : Nat) (w' : World) : Prop where
  ready : w'.Ready s
  grows : (w.state s).Extends (w'.state s)

theorem World.Ready.refl {w : World} {s : Nat} (h : w.Ready s) : w.Builds s w :=
  ⟨h, .refl _⟩

theorem World.Builds.trans {w w' w'' : World} {s : Nat} (h : w.Builds s w') (h' : w'.Builds s w'') :
    w.Builds s w'' := ⟨h'.ready, h.grows.trans h'.grows⟩

theorem World.Ready.setState {w : World} {s : Nat} {g : GuestState} (h : w.Ready s)
    (hg : (w.state s).Extends g) (hmarks : g.MarksArrays) : w.Builds s (w.setState s g) := by
  have hstate := World.state_setState h.lt g
  refine ⟨⟨?_, by rwa [hstate]⟩, by rwa [hstate]⟩
  show s < (w.states.setIfInBounds s g).size
  rw [Array.size_setIfInBounds]
  exact h.lt

namespace Converter

variable {c : Converter} {s room remaining : Nat} {w : World} {g g' : GuestState}
  {v : GuestValue} {x : Value}

/-! ## What values of the guest stand for

Reading is not a function of the value alone: it depends on the heap, on the tables that one has
come through, and on what is left of the limit.  The definition takes in all of that at once, and
only its monotonicity is used from then on. -/

/-- A value of the guest is read as a canonical value, in every heap that has grown out of this one
and inside any tables that are not yet in it, if there is room for so many tables. -/
structure StandsFor (c : Converter) (s : Nat) (g : GuestState) (room : Nat) (v : GuestValue)
    (x : Value) : Prop where
  isNil : v.isNil = x.isNil
  reads : ∀ (w : World) (remaining : Nat) (path : List Nat), g.Extends (w.state s) →
    room ≤ remaining → (∀ id ∈ path, g.tables.size ≤ id) →
    Reads (c.toValueAt s remaining path) w v x

theorem StandsFor.mono (h : StandsFor c s g room v x) (hg : g.Extends g') {room' : Nat}
    (hroom : room ≤ room') : StandsFor c s g' room' v x :=
  ⟨h.isNil, fun w remaining path hw hr hpath => h.reads w remaining path (hg.trans hw)
    (Nat.le_trans hroom hr) fun id hid => Nat.le_trans hg.size (hpath id hid)⟩

/-- For what is not a table, neither the path nor the limit matters. -/
theorem standsFor_leaf (hv : ∀ id, v ≠ .table id) (hnil : v.isNil = x.isNil)
    (h : ∀ w : World, g.Extends (w.state s) → (c.leafToValue s v).on w = (.ok x, w)) :
    StandsFor c s g 0 v x := by
  refine ⟨hnil, fun w remaining path hw _ _ => ?_⟩
  rw [Reads, on_toValueAt_leaf hv]
  exact h w hw

/-- A new table is not on any path that it can be read from. -/
theorem on_toValueAt_newTable (hc : c.codecs = []) {t : GuestTable} {left : Nat} {path : List Nat}
    (hw : (g.newTable t).2.Extends (w.state s))
    (hpath : ∀ id ∈ path, (g.newTable t).2.tables.size ≤ id) {marked : Bool}
    (hmarked : t.entries = [] → (w.state s).isMarkedArray t = .ok marked) :
    (c.toValueAt s (left + 1) path (.table (g.newTable t).1)).on w
      = if t.entries = [] then (.ok (if marked then .array [] else .object []), w)
        else (entriesToValue (c.toValueAt s left ((g.newTable t).1 :: path)) t.entries).on w := by
  have hid : (g.newTable t).1 ∉ path := by
    intro hmem
    have hle := hpath _ hmem
    have hsize : (g.newTable t).2.tables.size = g.tables.size + 1 := Array.size_push t
    rw [hsize] at hle
    exact Nat.not_succ_le_self _ hle
  have htable : (w.state s).table (g.newTable t).1 = t :=
    GuestState.table_of_getElem? (hw.tables (GuestState.getElem?_newTable g t))
  rw [toValueAt_table_succ hc]
  split
  · rename_i he
    rw [on_tableToValue_empty hid (Nat.succ_ne_zero left) (htable ▸ he) (htable ▸ hmarked he)]
  · rename_i he
    rw [on_tableToValue_entries hid (Nat.succ_ne_zero left) (htable ▸ he), htable]

/-- A new table stands for what can be put together from its entries. -/
theorem standsFor_newTable (hc : c.codecs = []) {t : GuestTable} (hmeta : t.metatable = none)
    (hnil : x.isNil = false) (hnames : HasNames t.entries)
    (h : ∀ (w : World) (left : Nat) (path : List Nat), g.Extends (w.state s) → room ≤ left →
      (∀ id ∈ path, g.tables.size ≤ id) →
      Assembled (Reads (c.toValueAt s left path) w) t.entries x) :
    StandsFor c s (g.newTable t).2 (room + 1) (.table (g.newTable t).1) x := by
  refine ⟨hnil.symm, fun w remaining path hw hr hpath => ?_⟩
  obtain ⟨left, rfl⟩ : ∃ left, remaining = left + 1 := ⟨remaining - 1, by omega⟩
  have hg := GuestState.extends_newTable g t
  have hassembled := h w left ((g.newTable t).1 :: path) (hg.trans hw) (Nat.le_of_succ_le_succ hr)
    fun id hid => by
      rcases List.mem_cons.1 hid with rfl | hid
      · exact Nat.le_refl _
      · exact Nat.le_trans hg.size (hpath id hid)
  have hmarked : (w.state s).isMarkedArray t = .ok false := by
    rw [GuestState.isMarkedArray, hmeta]
  rw [Reads, on_toValueAt_newTable hc hw hpath fun _ => hmarked]
  split
  · rename_i he
    rw [he] at hassembled
    rw [Assembled.unique (fun _ _ _ ha hb => ha.unique hb) hassembled (assembled_nil _)]
    rfl
  · exact entriesToValue_reads (fun entry he => hassembled.exists hnames he) hnames hassembled

/-- A new table that is marked stands for the empty array. -/
theorem standsFor_marked (hc : c.codecs = []) {m : Nat} (hm : g.IsMarker m) :
    StandsFor c s (g.newTable { metatable := some m }).2 1
      (.table (g.newTable { metatable := some m }).1) (.array []) := by
  refine ⟨rfl, fun w remaining path hw hr hpath => ?_⟩
  obtain ⟨left, rfl⟩ : ∃ left, remaining = left + 1 := ⟨remaining - 1, by omega⟩
  have hg := GuestState.extends_newTable g { metatable := some m }
  rw [Reads, on_toValueAt_newTable hc hw hpath fun _ =>
    GuestState.isMarkedArray_of_isMarker rfl (hm.mono (hg.trans hw))]
  rfl

/-! ## Putting values in

The induction is on the value.  An aggregate is put in after its elements, so these are in an
earlier heap than its table, and stand for the same there as in the later one. -/

/-- A value goes into a guest state if the limit leaves room for its depth, and what it becomes
stands for its normal form.  If there is no room, the conversion says so. -/
def GoesIn (c : Converter) (s : Nat) (x : Value) : Prop :=
  ∀ (remaining : Nat) (w : World), w.Ready s →
    (x.depth ≤ remaining → ∃ v w', (c.fromValueAt s remaining x).on w = (.ok v, w')
      ∧ w.Builds s w' ∧ StandsFor c s (w'.state s) x.depth v (x.normBy settled))
    ∧ (remaining < x.depth →
      ∃ w', (c.fromValueAt s remaining x).on w = (.error (.tooDeep c.maxDepth), w'))

/-- What is not an aggregate and becomes a plain value goes in. -/
theorem goesIn_plain (hdepth : x.depth = 0) (hv : ∀ id, v ≠ .table id)
    (hfrom : ∀ remaining, c.fromValueAt s remaining x = pure v)
    (hnil : v.isNil = (x.normBy settled).isNil)
    (hto : ∀ w : World, (c.leafToValue s v).on w = (.ok (x.normBy settled), w)) :
    GoesIn c s x := by
  intro remaining w hw
  refine ⟨fun _ => ⟨v, w, ?_, hw.refl, ?_⟩, fun hr => ?_⟩
  · rw [hfrom, Conversion.on_pure]
  · rw [hdepth]
    exact standsFor_leaf hv hnil fun w _ => hto w
  · rw [hdepth] at hr
    exact absurd hr (Nat.not_lt_zero _)

/-- What is carried goes in. -/
theorem goesIn_carried (hdepth : x.depth = 0) (hnil : x.isNil = false)
    (hfrom : ∀ remaining w, (c.fromValueAt s remaining x).on w = (carry s x).on w)
    (hnorm : x.normBy settled = x) : GoesIn c s x := by
  intro remaining w hw
  have hg := GuestState.extends_newUserdata (w.state s) (.carrier x)
  have hbuilds := hw.setState hg (hw.marks.mono hg rfl)
  refine ⟨fun _ => ⟨((w.state s).newUserdata (.carrier x)).1, _, ?_, hbuilds, ?_⟩, fun hr => ?_⟩
  · rw [hfrom, carry, Conversion.on_onState]
  · rw [hdepth, hnorm, World.state_setState hw.lt]
    refine standsFor_leaf (fun id h => by cases h) hnil.symm fun w' hw' => ?_
    exact leafToValue_carried (GuestState.carried?_of_getElem?
      (hw'.userdata Array.getElem?_push_size))
  · rw [hdepth] at hr
    exact absurd hr (Nat.not_lt_zero _)

/-- The values of the guest that stand for the normal forms of some elements. -/
def StandForAll (c : Converter) (s : Nat) (g : GuestState) (room : Nat) (items : List Value)
    (values : List GuestValue) : Prop :=
  List.Forall₂ (fun x v => StandsFor c s g room v (x.normBy settled)) items values

/-- Elements go in one after the other, up to the first that is too deep. -/
theorem itemsFromValue_on {items : List Value} (h : ∀ x ∈ items, GoesIn c s x) (remaining : Nat) :
    ∀ {w : World}, w.Ready s →
      (Value.depthItems items ≤ remaining →
        ∃ values w', (c.itemsFromValue s remaining items).on w = (.ok values, w')
          ∧ w.Builds s w' ∧ StandForAll c s (w'.state s) (Value.depthItems items) items values)
      ∧ (remaining < Value.depthItems items → ∃ w',
        (c.itemsFromValue s remaining items).on w = (.error (.tooDeep c.maxDepth), w')) := by
  induction items with
  | nil =>
    intro w hw
    refine ⟨fun _ => ⟨[], w, ?_, hw.refl, List.Forall₂.nil⟩, fun hr => ?_⟩
    · rw [itemsFromValue, Conversion.on_pure]
    · exact absurd hr (Nat.not_lt_zero _)
  | cons x rest ih =>
    intro w hw
    obtain ⟨hfits, hdeep⟩ := h x List.mem_cons_self remaining w hw
    have ih := fun {w} => @ih (fun y hy => h y (List.mem_cons_of_mem x hy)) w
    rw [Value.depthItems, itemsFromValue]
    by_cases hx : x.depth ≤ remaining
    · obtain ⟨v, w₁, hv, hb₁, hstands⟩ := hfits hx
      obtain ⟨hfits', hdeep'⟩ := ih hb₁.ready
      refine ⟨fun hr => ?_, fun hr => ?_⟩
      · obtain ⟨values, w₂, hvalues, hb₂, hall⟩ := hfits' (Nat.max_le.1 hr).2
        refine ⟨v :: values, w₂, ?_, hb₁.trans hb₂, ?_⟩
        · rw [Conversion.on_bind_ok hv, Conversion.on_bind_ok hvalues, Conversion.on_pure]
        · refine List.Forall₂.cons (hstands.mono hb₂.grows (Nat.le_max_left _ _)) ?_
          exact hall.imp fun _ _ hs => hs.mono (.refl _) (Nat.le_max_right _ _)
      · obtain ⟨w₂, hvalues⟩ := hdeep' (by omega)
        exact ⟨w₂, by rw [Conversion.on_bind_ok hv, Conversion.on_bind_error hvalues]⟩
    · obtain ⟨w₁, hv⟩ := hdeep (Nat.not_le.1 hx)
      refine ⟨fun hr => absurd (Nat.max_le.1 hr).1 hx, fun _ => ⟨w₁, ?_⟩⟩
      rw [Conversion.on_bind_error hv]

/-- Fields go in as their values do. -/
theorem fieldsFromValue_on (remaining : Nat) (fields : Fields) : ∀ {w : World},
    (c.fieldsFromValue s remaining fields).on w
      = match (c.itemsFromValue s remaining (fields.map (·.2))).on w with
        | (.ok values, w') => (.ok ((fields.map (·.1)).zip values), w')
        | (.error e, w') => (.error e, w') := by
  induction fields with
  | nil => exact rfl
  | cons field rest ih =>
    intro w
    obtain ⟨name, x⟩ := field
    rw [fieldsFromValue, List.map_cons, List.map_cons, itemsFromValue]
    cases hx : (c.fromValueAt s remaining x).on w with
    | mk r w₁ =>
      cases r with
      | error e => rw [Conversion.on_bind_error hx, Conversion.on_bind_error hx]
      | ok v =>
        rw [Conversion.on_bind_ok hx, Conversion.on_bind_ok hx]
        cases hr : (c.itemsFromValue s remaining (rest.map (·.2))).on w₁ with
        | mk r w₂ =>
          have ih := @ih w₁
          rw [hr] at ih
          cases r with
          | error e => rw [Conversion.on_bind_error ih, Conversion.on_bind_error hr]
          | ok values => rw [Conversion.on_bind_ok ih, Conversion.on_bind_ok hr]; rfl

/-- An aggregate goes in after its elements, as a table that is built from their values. -/
theorem goesIn_aggregate (items : List Value)
    (build : List GuestValue → GuestState → GuestValue × GuestState)
    (hdepth : x.depth = Value.depthItems items + 1) (h : ∀ y ∈ items, GoesIn c s y)
    (hzero : c.fromValueAt s 0 x = throw (.tooDeep c.maxDepth))
    (hsucc : ∀ left w, (c.fromValueAt s (left + 1) x).on w
      = (c.itemsFromValue s left items >>= fun values => Conversion.onState s (build values)).on w)
    (hbuild : ∀ g values, g.MarksArrays → StandForAll c s g (Value.depthItems items) items values →
      g.Extends (build values g).2 ∧ (build values g).2.MarksArrays
        ∧ StandsFor c s (build values g).2 (Value.depthItems items + 1) (build values g).1
          (x.normBy settled)) :
    GoesIn c s x := by
  intro remaining w hw
  rw [hdepth]
  cases remaining with
  | zero =>
    refine ⟨fun hr => absurd hr (Nat.not_succ_le_zero _), fun _ => ⟨w, ?_⟩⟩
    rw [hzero, Conversion.on_throw]
  | succ left =>
    obtain ⟨hfits, hdeep⟩ := itemsFromValue_on h left hw
    rw [hsucc]
    refine ⟨fun hr => ?_, fun hr => ?_⟩
    · obtain ⟨values, w', hvalues, hb, hall⟩ := hfits (Nat.le_of_succ_le_succ hr)
      obtain ⟨hg, hmarks, hstands⟩ := hbuild (w'.state s) values hb.ready.marks hall
      refine ⟨(build values (w'.state s)).1, _, ?_, hb.trans (hb.ready.setState hg hmarks), ?_⟩
      · rw [Conversion.on_bind_ok hvalues, Conversion.on_onState]
      · rw [World.state_setState hb.ready.lt]
        exact hstands
    · obtain ⟨w', hvalues⟩ := hdeep (Nat.lt_of_succ_lt_succ hr)
      exact ⟨w', by rw [Conversion.on_bind_error hvalues]⟩

/-- What stands for elements in a heap is read as them in all that have grown out of it. -/
theorem StandForAll.readAs {items : List Value} {values : List GuestValue}
    (h : StandForAll c s g room items values) {left : Nat} {path : List Nat}
    (hw : g.Extends (w.state s)) (hr : room ≤ left) (hpath : ∀ id ∈ path, g.tables.size ≤ id) :
    List.Forall₂ (fun x v => ReadAs (c.toValueAt s left path) w (x.normBy settled) v)
      items values :=
  h.imp fun _ _ hs => ⟨hs.isNil, hs.reads w left path hw hr hpath⟩

/-- An empty array goes in as a marked table. -/
theorem goesIn_array_nil (hc : c.codecs = []) : GoesIn c s (.array []) := by
  refine goesIn_aggregate [] (fun values g =>
    let marked := g.arrayMarkerTable
    let made := marked.2.newTable { GuestTable.ofSequence values with metatable := some marked.1 }
    (.table made.1, made.2)) rfl (fun y hy => absurd hy List.not_mem_nil) rfl (fun left w => rfl)
    fun g values hmarks hall => ?_
  cases hall
  obtain ⟨hg, hmarks', hm⟩ := GuestState.arrayMarkerTable_spec hmarks
  have hnew := GuestState.extends_newTable g.arrayMarkerTable.2
    { metatable := some g.arrayMarkerTable.1 }
  exact ⟨hg.trans hnew, hmarks'.mono hnew rfl, standsFor_marked hc hm⟩

theorem goesIn_array (hc : c.codecs = []) {items : List Value} (short : items.length < 2 ^ 63)
    (h : ∀ x ∈ items, GoesIn c s x) : GoesIn c s (.array items) := by
  by_cases hne : items = []
  · rw [hne]
    exact goesIn_array_nil hc
  · have hempty : items.isEmpty = false := List.isEmpty_eq_false_iff.2 hne
    refine goesIn_aggregate items (fun values g =>
      let made := g.newTable (GuestTable.ofSequence values)
      (.table made.1, made.2)) rfl h rfl (fun left w => ?_) fun g values hmarks hall => ?_
    · rw [fromValueAt, if_neg (Nat.succ_ne_zero left), Nat.add_sub_cancel, hempty]
      rfl
    · have hnew := GuestState.extends_newTable g (GuestTable.ofSequence values)
      have hshort : values.length < 2 ^ 63 := hall.length_eq ▸ short
      refine ⟨hnew, hmarks.mono hnew rfl, ?_⟩
      rw [Value.normBy, Value.normItems_eq_map]
      refine standsFor_newTable hc rfl (Value.isNil_ofItems _) (hasNames_ofSequence hshort)
        fun w left path hw hr hpath => ?_
      refine assembled_ofSequence (fun hn => hne (List.map_eq_nil_iff.1 hn)) hshort ?_
      exact (List.forall₂_map_left_iff).2 (hall.readAs hw hr hpath)

/-- Fields go with the values of their values. -/
theorem zip_forall₂ {R : Value → GuestValue → Prop} {fields : Fields} :
    ∀ {values : List GuestValue}, List.Forall₂ R (fields.map (·.2)) values →
      List.Forall₂ (fun field pair => pair.1 = field.1 ∧ R field.2 pair.2) fields
        ((fields.map (·.1)).zip values) := by
  induction fields with
  | nil => exact fun _ => List.Forall₂.nil
  | cons field rest ih =>
    intro values h
    cases h with
    | cons hv hrest => exact List.Forall₂.cons ⟨rfl, hv⟩ (ih hrest)

theorem goesIn_object (hc : c.codecs = []) {fields : Fields} (sorted : fields.Sorted)
    (h : ∀ field ∈ fields, GoesIn c s field.2) : GoesIn c s (.object fields) := by
  refine goesIn_aggregate (fields.map (·.2)) (fun values g =>
    let made := g.newTable (GuestTable.ofFields ((fields.map (·.1)).zip values))
    (.table made.1, made.2)) ?_ ?_ rfl (fun left w => ?_) fun g values hmarks hall => ?_
  · rw [Value.depth, Value.depthFields_eq]
  · intro y hy
    obtain ⟨field, hf, rfl⟩ := List.mem_map.1 hy
    exact h field hf
  · rw [fromValueAt, if_neg (Nat.succ_ne_zero left), Nat.add_sub_cancel]
    have hfields := fieldsFromValue_on (c := c) (s := s) left fields (w := w)
    cases hr : (c.itemsFromValue s left (fields.map (·.2))).on w with
    | mk r w' =>
      rw [hr] at hfields
      cases r with
      | error e =>
        rw [Conversion.on_bind_error hr]
        exact Conversion.on_bind_error hfields
      | ok values =>
        rw [Conversion.on_bind_ok hr]
        exact Conversion.on_bind_ok hfields
  · have hnew := GuestState.extends_newTable g
      (GuestTable.ofFields ((fields.map (·.1)).zip values))
    refine ⟨hnew, hmarks.mono hnew rfl, ?_⟩
    have hlen : (fields.map (·.1)).length ≤ values.length := by
      rw [List.length_map, ← hall.length_eq, List.length_map]
    have hpairs : ((fields.map (·.1)).zip values).Pairwise fun a b => a.1 < b.1 := by
      rw [← List.pairwise_map, List.map_fst_zip hlen]
      exact List.pairwise_map.2 sorted
    have hnormal : (Value.object fields).normBy settled = .object
        ((fields.map fun field => (field.1, field.2.normBy settled)).filter
          fun field => !field.2.isNil) := by
      rw [Value.normBy, Value.normFields_eq_map, List.filter_map]
      congr 2
      refine List.filter_congr fun field _ => ?_
      rw [Function.comp, Value.isNil_normBy]
    rw [hnormal]
    refine standsFor_newTable hc (GuestTable.add_metatable _ _) rfl (hasNames_ofFields hpairs)
      fun w left path hw hr hpath => ?_
    refine assembled_ofFields (List.pairwise_map.2 sorted) (hasNames_ofFields hpairs) ?_
    exact List.forall₂_map_left_iff.2 (zip_forall₂ (hall.readAs hw hr hpath))

/-- A number goes in as an integer, if it stands for one that the guest has. -/
theorem ofNumber_cases (y : Float) :
    (∃ n : Int, (-(2 ^ 63) ≤ n ∧ n < 2 ^ 63) ∧ GuestValue.ofNumber y = .ofInt n
        ∧ settled y = Float.ofInt n)
      ∨ (GuestValue.ofNumber y = .float y ∧ settled y = y) := by
  rw [GuestValue.ofNumber, settled]
  cases Decimal.integer? y with
  | none => exact .inr ⟨rfl, rfl⟩
  | some n =>
    dsimp only
    split
    · rename_i hrange
      exact .inl ⟨n, hrange, rfl, rfl⟩
    · exact .inr ⟨rfl, rfl⟩

theorem goesIn_number (y : Float) : GoesIn c s (.number y) := by
  obtain ⟨n, hrange, hv, hy⟩ | ⟨hv, hy⟩ := ofNumber_cases y
  · refine goesIn_plain (v := .ofInt n) rfl (fun _ h => by cases h) (fun _ => ?_) rfl fun w => ?_
    · rw [fromValueAt, hv]
    · rw [GuestValue.ofInt, leafToValue, Int64.toInt_ofInt_of_le hrange.1 hrange.2, Value.normBy, hy,
        Conversion.on_pure]
  · refine goesIn_plain (v := .float y) rfl (fun _ h => by cases h) (fun _ => ?_) rfl fun w => ?_
    · rw [fromValueAt, hv]
    · rw [leafToValue, Value.normBy, hy, Conversion.on_pure]

/-- Without codecs, a custom value that is not made of bytes or an object of the guest is carried.
-/
theorem customFromValue_carry (hc : c.codecs = []) {custom : Custom}
    (bytes : ∀ data, custom.payload ≠ .bytes data)
    (guest : ∀ state o, custom.payload ≠ .guest state o) (w : World) :
    (c.customFromValue s custom).on w = (carry s (.custom custom)).on w := by
  have hencode : (c.encodeCustom s custom).on w = (carry s (.custom custom)).on w := by
    have hcodec : c.codec? custom.tag = none := by
      rw [codec?, hc]
      rfl
    rw [encodeCustom, Conversion.on_get_bind, hcodec]
    rfl
  rw [customFromValue]
  split
  · rename_i data hdata
    exact absurd hdata (bytes data)
  · rename_i state o hguest
    exact absurd hguest (guest state o)
  · exact hencode

/-- **All data goes in**, if there is room for its depth. -/
theorem goesIn (hc : c.codecs = []) (hx : x.Crosses) : GoesIn c s x := by
  induction hx with
  | nil => exact goesIn_plain rfl (fun _ h => by cases h) (fun _ => rfl) rfl fun _ => rfl
  | bool b => exact goesIn_plain rfl (fun _ h => by cases h) (fun _ => rfl) rfl fun _ => rfl
  | number y => exact goesIn_number y
  | string text =>
    refine goesIn_plain (v := .ofString text) rfl (fun _ h => by cases h) (fun _ => rfl) rfl
      fun w => ?_
    rw [GuestValue.ofString, leafToValue, GuestValue.fromUTF8?_toUTF8]
    rfl
  | array short _ ih => exact goesIn_array hc short ih
  | object sorted _ ih => exact goesIn_object hc sorted ih
  | error e => exact goesIn_carried rfl rfl (fun _ _ => rfl) rfl
  | channel ch => exact goesIn_carried rfl rfl (fun _ _ => rfl) rfl
  | custom bytes guest =>
    exact goesIn_carried rfl rfl (fun _ w => customFromValue_carry hc bytes guest w) rfl

/-! ## From the root -/

/-- A value comes back as another, when it is put into a guest state and read back. -/
def RoundTrip (c : Converter) (s : Nat) (w : World) (x y : Value) (w' : World) : Prop :=
  ∃ v, (c.fromValue s x).on w = (.ok v, w') ∧ (c.toValue s v).on w' = (.ok y, w')

/-- What comes back is the normal form, but for numbers that have been integers. -/
theorem roundTrip_normBy (hc : c.codecs = []) (hw : w.Ready s) (hx : x.Crosses)
    (hdepth : x.depth ≤ c.maxDepth) :
    ∃ w', RoundTrip c s w x (x.normBy settled) w' ∧ w.Builds s w' := by
  obtain ⟨v, w', hv, hb, hstands⟩ := (goesIn hc hx c.maxDepth w hw).1 hdepth
  exact ⟨w', ⟨v, hv, hstands.reads w' c.maxDepth [] (.refl _) hdepth
    fun _ h => absurd h List.not_mem_nil⟩, hb⟩

/-- **Data that is put into a guest and read back comes back in its normal form.**  It goes in
exactly if its aggregates are nested no deeper than the limit allows, and the limit is the only
reason why it may not.  A value without `nil`s in its aggregates comes back equal to itself, and
what has come back once comes back equal ever after, from this state or another. -/
theorem roundTrip_data (hc : c.codecs = []) (hw : w.Ready s) (hx : x.IsData) :
    ((∃ v, ((c.fromValue s x).on w).1 = .ok v) ↔ x.depth ≤ c.maxDepth)
      ∧ (∀ e, ((c.fromValue s x).on w).1 = .error e → e = .tooDeep c.maxDepth)
      ∧ ∀ v w', (c.fromValue s x).on w = (.ok v, w') →
        ∃ y, (c.toValue s v).on w' = (.ok y, w')
          ∧ y.same x.norm = true
          ∧ (x.Whole → y.same x = true)
          ∧ w'.Ready s
          ∧ ∀ s' w₁, w₁.Ready s' → ∃ z w₂, RoundTrip c s' w₁ y z w₂ ∧ z.same y = true := by
  obtain ⟨hfits, hdeep⟩ := goesIn (s := s) hc hx.crosses c.maxDepth w hw
  by_cases hdepth : x.depth ≤ c.maxDepth
  · obtain ⟨w', ⟨v, hv, hy⟩, hb⟩ := roundTrip_normBy hc hw hx.crosses hdepth
    refine ⟨⟨fun _ => hdepth, fun _ => ⟨v, by rw [hv]⟩⟩, fun e he => ?_, fun v' w'' hv' => ?_⟩
    · rw [hv] at he
      cases he
    · obtain ⟨rfl, rfl⟩ : v = v' ∧ w' = w'' := by
        rw [hv] at hv'
        cases hv'
        exact ⟨rfl, rfl⟩
      have hnumbers : ∀ y : Float, y.isNaN = false → (settled y == id y) = true :=
        fun y hy => settled_beq hy
      have hdata : (x.normBy settled).IsData := Value.isData_normBy (fun y => isNaN_settled) hx
      have hsame := Value.same_normBy hnumbers hx
      refine ⟨x.normBy settled, hy, hsame, fun hwhole => ?_, hb.ready, fun s' w₁ hw₁ => ?_⟩
      · rwa [Value.normBy_id hwhole] at hsame
      · obtain ⟨w₂, htrip, -⟩ := roundTrip_normBy hc hw₁ hdata.crosses
          (Nat.le_trans (Value.depth_normBy_le hx) hdepth)
        refine ⟨_, w₂, htrip, ?_⟩
        rw [Value.normBy_normBy hx]
        exact Value.same_normBy (fun y hy => settled_beq (isNaN_settled hy)) hx
  · obtain ⟨w', hv⟩ := hdeep (Nat.not_le.1 hdepth)
    have hfrom : (c.fromValue s x).on w = (.error (.tooDeep c.maxDepth), w') := hv
    rw [hfrom]
    refine ⟨⟨fun ⟨v, hok⟩ => (nomatch hok), fun hd => absurd hd hdepth⟩, fun e he => ?_,
      fun v w'' hok => ?_⟩
    · exact (Except.error.inj he).symm
    · exact nomatch (Prod.mk.inj hok).1

/-- A world with one guest state, in which nothing has happened. -/
def untouched : World where
  states := #[{}]

/-- An array with a hole, and an object with a field that is `nil`. -/
def holed : Value :=
  .array [.number 1.0, .nil, .object [("a", .array []), ("b", .nil)]]

theorem roundTrip_data_holed : untouched.Ready 0 ∧ holed.IsData
    ∧ ∃ v w' y, (({} : Converter).fromValue 0 holed).on untouched = (.ok v, w')
      ∧ (({} : Converter).toValue 0 v).on w' = (.ok y, w')
      ∧ y.same (.object [("1", .number 1.0), ("3", .object [("a", .array [])])]) = true := by
  have hready : untouched.Ready 0 := ⟨Nat.zero_lt_one, fun _ h => nomatch h⟩
  have hinner : (Value.object [("a", .array []), ("b", .nil)]).IsData := by
    refine .object (List.pairwise_pair.2 (by decide)) fun field hf => ?_
    rcases List.mem_pair.1 hf with rfl | rfl
    · exact .array (by decide) fun _ h => absurd h List.not_mem_nil
    · exact .nil
  have hdata : holed.IsData := by
    refine .array (by decide) fun x hx => ?_
    rcases List.mem_cons.1 hx with rfl | hx
    · exact .number (by decide +kernel)
    · rcases List.mem_pair.1 hx with rfl | rfl
      · exact .nil
      · exact hinner
  have hnorm : holed.norm = .object [("1", .number 1.0), ("3", .object [("a", .array [])])] := rfl
  obtain ⟨hok, -, hback⟩ := roundTrip_data (c := {}) rfl hready hdata
  obtain ⟨v, hv⟩ := hok.2 (by decide)
  obtain ⟨y, hy, hsame, -⟩ := hback v _ (Prod.ext hv rfl)
  exact ⟨hready, hdata, v, _, y, Prod.ext hv rfl, hy, hnorm ▸ hsame⟩

end Converter
end ScriptPool
