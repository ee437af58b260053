import ScriptPool.Proofs.Convert.Courses
import ScriptPool.Proofs.Convert.GuestTrip
import ScriptPool.Proofs.Convert.Turns
import ScriptPool.Proofs.Value.Leaves

/-!
# Trees there and back

A tree is put into a guest state, by a converter with codecs, and read back.  If its leaves come
back, so does the tree: every table that is made for an aggregate is offered to all codecs and left
alone by them, and is then read as a table, whose values are converted in turn.

What was put in comes back from every course that goes on from there, and from inside any tables
that are made later.  The latter keeps the search for cycles from finding any.  In contrast to
`ScriptPool.Proofs.Convert.RoundTrip`, what comes back is not one value, since leaves can come back
with fresh handles; it is known leaf by leaf.

## What is here

* `putTogether_sequence`, `putTogether_fields` — the value that the tables of aggregates are put
  together to.
* `ReadsBack`, `GoesThrough` — what is shown of a value of the guest, and of putting a value in.
* `goesThrough_array`, `goesThrough_object` — aggregates, given their elements.
* `goesThrough` — **a tree comes back if its leaves do**.
-/

set_option autoImplicit false

namespace ScriptPool
namespace Converter

variable {c : Converter} {codecs : Array Codec} {s left id room : Nat} {w w' u : World}
  {path : List Nat} {p q : Course} {t : GuestTable} {v : GuestValue} {x y z : Value}
  {R : Value → Value → Prop} {ts : List Turn}

/-! ## What turns are put together to -/

/-- **The values of a sequence are put together to what their places make of them.** -/
theorem putTogether_sequence {items : List Value} (hne : items ≠ []) (short : items.length < 2 ^ 63)
    (h : List.Forall₂ (fun place t => t.entry.1 = .ofInt ((place.1 + 1 : Nat) : Int)
      ∧ t.value = place.2) (present Value.isNil 0 items) ts) :
    putTogether (Shape.ofKeys ((ts.map (·.entry)).map (·.1.keyKind))) ts = Value.ofItems items := by
  have hlt : ∀ place ∈ present Value.isNil 0 items, place.1 + 1 < 2 ^ 63 := by
    intro place hp
    have hb := ((present_places items 0).2 place hp).2
    omega
  have hboth := (List.forall₂_and_left _ _).2 ⟨hlt, h⟩
  have hkinds : (ts.map (·.entry)).map (·.1.keyKind)
      = ((present Value.isNil 0 items).map (·.1)).map Shape.keyOf := by
    rw [List.map_map, List.map_map]
    refine (map_eq_map_of_forall₂ (fun place t hr => ?_) hboth).symm
    show Shape.keyOf place.1 = t.entry.1.keyKind
    rw [hr.2.1, GuestValue.keyKind_ofInt hr.1]
  have hplaced : ts.map (fun t => (placeOf t.entry.1, t.value)) = present Value.isNil 0 items := by
    rw [← List.map_id (present Value.isNil 0 items)]
    refine (map_eq_map_of_forall₂ (fun place t hr => ?_) hboth).symm
    show place = _
    rw [placeOf_eq (hr.2.1 ▸ GuestValue.keyKind_ofInt hr.1), hr.2.2]
  have hnamed : ts.map (fun t => (nameOf t.entry.1, t.value))
      = (present Value.isNil 0 items).map fun place => (toString (place.1 + 1), place.2) := by
    refine (map_eq_map_of_forall₂ (fun place t hr => ?_) hboth).symm
    show _ = (nameOf t.entry.1, t.value)
    rw [nameOf, hr.2.1, GuestValue.fieldName_ofInt hr.1, hr.2.2]
  have hsorted : ((present Value.isNil 0 items).map (·.1)).Pairwise (· < ·) :=
    (present_places items 0).1
  rw [hkinds]
  by_cases hl : Value.Leading items
  · obtain ⟨hsome, hrange⟩ := hl.resolve_left hne
    have hshape : Shape.ofKeys (((present Value.isNil 0 items).map (·.1)).map Shape.keyOf)
        = .array (present Value.isNil 0 items).length :=
      Shape.ofKeys_eq_array.2 ⟨List.length_pos_iff.2 hsome, (places_perm_iff hsorted).2 hrange⟩
    rw [hshape, putTogether, hplaced, Value.ofItems_of_leading hl]
    congr 1
    have hfilled := filled_foldl (List.Perm.of_eq hrange)
    refine List.ext_getElem? fun i => ?_
    rw [List.getElem?_map]
    cases hi : (present Value.isNil 0 items)[i]? with
    | none =>
      rw [Option.map_none, List.getElem?_eq_none_iff, hfilled.length]
      exact List.getElem?_eq_none_iff.1 hi
    | some place =>
      -- the places count up from zero
      have hplace : (List.range (present Value.isNil 0 items).length)[i]? = some place.1 := by
        rw [← hrange, List.getElem?_map, hi]
        rfl
      obtain ⟨hlen, hplace⟩ := List.getElem?_eq_some_iff.1 hplace
      rw [List.getElem_range] at hplace
      rw [hplace]
      exact hfilled.kept place (List.mem_of_getElem? hi)
  · have hshape : Shape.ofKeys (((present Value.isNil 0 items).map (·.1)).map Shape.keyOf)
        = .object := by
      refine Shape.ofKeys_eq_object.2 fun n hn hperm => hl (.inr ?_)
      rw [places_perm_iff hsorted] at hperm
      have hlen : (present Value.isNil 0 items).length = n := by
        rw [← List.length_map (f := (·.1)), hperm, List.length_range]
      refine ⟨List.ne_nil_of_length_pos (hlen ▸ hn), ?_⟩
      rw [hperm, hlen]
    rw [hshape, putTogether, hnamed, Value.ofItems_of_not_leading hl]

/-- **The values of a table of fields are put together to an object.** -/
theorem putTogether_fields {fields : Fields} (sorted : fields.Sorted)
    (h : List.Forall₂ (fun field t => t.entry.1 = .ofString field.1 ∧ t.value = field.2) fields ts) :
    putTogether (Shape.ofKeys ((ts.map (·.entry)).map (·.1.keyKind))) ts = .object fields := by
  have hshape : Shape.ofKeys ((ts.map (·.entry)).map (·.1.keyKind)) = .object := by
    refine Shape.ofKeys_eq_object.2 fun n hn hperm => ?_
    have hfirst := hperm.mem_iff.2 (List.mem_map_of_mem (List.mem_range.2 hn))
    rw [List.map_map] at hfirst
    obtain ⟨t, ht, hkind⟩ := List.mem_map.1 hfirst
    obtain ⟨field, -, hkey, -⟩ := exists_of_forall₂ h.flip ht
    have hkind : t.entry.1.keyKind = Shape.keyOf 0 := hkind
    rw [hkey] at hkind
    cases hkind
  have hnamed : ts.map (fun t => (nameOf t.entry.1, t.value)) = fields := by
    rw [← List.map_id fields]
    refine (map_eq_map_of_forall₂ (fun field t hr => ?_) h).symm
    show field = _
    rw [nameOf, hr.1, GuestValue.fieldName_ofString, hr.2]
  rw [hshape, putTogether, hnamed, Fields.ofList_of_sorted sorted]

/-! ## Reading back

What is read back from one course is read back from all that go on from it.  The codecs may have
worked in the heap meanwhile, which is why the laws speak of courses and not of heaps. -/

/-- A world hosts a course: its codecs are the given ones, and the guest state is as the course
says. -/
structure Hosts (codecs : Array Codec) (s : Nat) (w : World) (p : Course) : Prop where
  codecs : w.codecs = codecs
  lt : s < w.states.size
  heap : w.state s = p.heap

theorem Hosts.dealt (h : Hosts codecs s w p) (hw : w.Dealt u) : Hosts codecs s u p :=
  ⟨hw.codecs.trans h.codecs, hw.states ▸ h.lt, (hw.state s).trans h.heap⟩

theorem Hosts.setState (h : Hosts codecs s w p) {g : GuestState} (hq : q.heap = g) :
    Hosts codecs s (w.setState s g) q :=
  ⟨h.codecs, (w.size_setState s g).symm ▸ h.lt, (World.state_setState h.lt g).trans hq.symm⟩

/-- A value of the guest is read as what is leaf by leaf like a canonical value, up to normal
forms. -/
def ReadLike (c : Converter) (s : Nat) (R : Value → Value → Prop) (w : World) (left : Nat)
    (path : List Nat) (v : GuestValue) (x : Value) : Prop :=
  ∃ z u, (c.toValueAt s left path v).on w = (.ok z.norm, u) ∧ x.Leafwise R z

/-- A value of the guest is read so in all courses that go on from the present one, if there is room
for so many tables, and inside any tables that are not there yet. -/
structure ReadsBack (c : Converter) (codecs : Array Codec) (s : Nat) (R : Value → Value → Prop)
    (p : Course) (room : Nat) (v : GuestValue) (x : Value) : Prop where
  isNil : v.isNil = x.isNil
  reads : ∀ (w : World) (q : Course) (left : Nat) (path : List Nat),
    p.Leads (c.codecFor codecs) q → Hosts codecs s w q → room ≤ left →
    (∀ id ∈ path, p.heap.tables.size ≤ id) → ReadLike c s R w left path v x

theorem ReadsBack.mono (h : ReadsBack c codecs s R p room v x) (hq : p.Leads (c.codecFor codecs) q)
    {room' : Nat} (hroom : room ≤ room') : ReadsBack c codecs s R q room' v x :=
  ⟨h.isNil, fun w q' left path hq' hw hleft hpath => h.reads w q' left path (hq.trans hq') hw
    (hroom.trans hleft) fun id hid => hq.size.trans (hpath id hid)⟩

/-- For what is not a table, neither the path nor the limit matters. -/
theorem readsBack_leaf (hv : ∀ id, v ≠ .table id) (hx : x.IsLeaf) (hnil : v.isNil = x.isNil)
    (h : ∀ w q, p.Leads (c.codecFor codecs) q → Hosts codecs s w q →
      ∃ z u, (c.leafToValue s v).on w = (.ok z, u) ∧ z.IsLeaf ∧ R x z) :
    ReadsBack c codecs s R p 0 v x := by
  refine ⟨hnil, fun w q left path hq hw _ _ => ?_⟩
  obtain ⟨z, u, hz, hleaf, hR⟩ := h w q hq hw
  refine ⟨z, u, ?_, .leaf hx hleaf hR⟩
  rw [on_toValueAt_leaf hv, hz, Value.norm_of_isLeaf hleaf]

/-- A table without a metatable that no codec claims is read as what its values are put together to,
which convert in turn. -/
theorem exists_turns (ht : (w.state s).table id = t) (hid : id ∉ path)
    (hoffer : (offer s (.table id) c.codecs).on w = (.ok none, w)) (hmeta : t.metatable = none)
    (hnames : HasNames t.entries)
    (hvalues : ∀ entry ∈ t.entries, ∀ u, w.Dealt u →
      ∃ y u', (c.toValueAt s left (id :: path) entry.2).on u = (.ok y, u')) :
    ∃ ts u, InTurn (c.toValueAt s left (id :: path)) w ts u ∧ ts.map (·.entry) = t.entries
      ∧ (c.toValueAt s (left + 1) path (.table id)).on w
        = (.ok (putTogether (Shape.ofKeys ((ts.map (·.entry)).map (·.1.keyKind))) ts), u) := by
  obtain ⟨ts, u, hts, hentries⟩ := exists_inTurn
    (c.keeps_toValueAt s World.handsOut_dealt trivial left (id :: path)) hvalues
  refine ⟨ts, u, hts, hentries, ?_⟩
  rw [on_toValueAt_unclaimed hoffer]
  by_cases hnone : t.entries = []
  · have hmarked : (w.state s).isMarkedArray ((w.state s).table id) = .ok false := by
      rw [GuestState.isMarkedArray, ht, hmeta]
    rw [on_tableToValue_empty hid (Nat.succ_ne_zero left) (ht ▸ hnone) hmarked]
    rw [hnone] at hentries
    obtain rfl := List.map_eq_nil_iff.1 hentries
    cases hts
    rfl
  · rw [on_tableToValue_entries hid (Nat.succ_ne_zero left) (ht ▸ hnone), ht, hentries]
    exact on_entriesToValue.2 ⟨fun _ => hnames, ts, hts, hentries, rfl⟩

/-! ## Elements by their turns -/

section Turns

theorem leafwise_nil (hnil : R .nil .nil) (h : x.isNil = true) : x.Leafwise R .nil := by
  cases x with
  | nil => exact .leaf trivial trivial hnil
  | _ => cases h

variable {Q : Value → GuestValue → Prop} (hQ : ∀ x v, Q x v → v.isNil = x.isNil)
  (hR : ∀ x z, R x z → z.isNil = x.isNil) (hnil : R .nil .nil)

include hQ hR hnil

/-- The turns of a sequence are the turns of its elements; those that are `nil` have none. -/
theorem exists_items_of_turns {items : List Value} {values : List GuestValue}
    (h : List.Forall₂ Q items values) : ∀ {i : Nat} {ts : List Turn},
    ts.map (·.entry) = ((present GuestValue.isNil i values).map
      fun place => (.ofInt ((place.1 + 1 : Nat) : Int), place.2)) →
    (∀ t ∈ ts, ∀ x, Q x t.entry.2 → ∃ z, t.value = z.norm ∧ x.Leafwise R z) →
    ∃ zs, List.Forall₂ (Value.Leafwise R) items zs
      ∧ List.Forall₂ (fun place t => t.entry.1 = .ofInt ((place.1 + 1 : Nat) : Int)
        ∧ t.value = place.2.norm) (present Value.isNil i zs) ts := by
  induction h with
  | nil =>
    intro i ts hts _
    obtain rfl := List.map_eq_nil_iff.1 hts
    exact ⟨[], .nil, .nil⟩
  | @cons x v items values hx _ ih =>
    intro i ts hts hread
    have hisNil := hQ x v hx
    rw [present] at hts
    cases hv : v.isNil with
    | true =>
      rw [hv, if_pos rfl] at hts
      obtain ⟨zs, hzs, hturns⟩ := ih hts hread
      exact ⟨.nil :: zs, .cons (leafwise_nil hnil (hisNil.symm.trans hv)) hzs, hturns⟩
    | false =>
      rw [hv, if_neg Bool.false_ne_true, List.map_cons] at hts
      obtain ⟨t, ts, rfl, hentry, hts⟩ := List.map_eq_cons_iff.1 hts
      obtain ⟨z, hz, hleafwise⟩ := hread t List.mem_cons_self x (hentry ▸ hx)
      obtain ⟨zs, hzs, hturns⟩ := ih hts fun t ht => hread t (List.mem_cons_of_mem _ ht)
      refine ⟨z :: zs, .cons hleafwise hzs, ?_⟩
      rw [present, hleafwise.isNil hR, ← hisNil, hv, if_neg Bool.false_ne_true]
      exact .cons ⟨congrArg Prod.fst hentry, hz⟩ hturns

/-- The turns of a table of fields are the turns of the fields that are not `nil`. -/
theorem exists_fields_of_turns {fields : Fields} {pairs : List (String × GuestValue)}
    (h : List.Forall₂ (fun field pair => pair.1 = field.1 ∧ Q field.2 pair.2) fields pairs) :
    ∀ {ts : List Turn},
    ts.map (·.entry) = ((pairs.filter fun pair => !pair.2.isNil).map
      fun pair => (.ofString pair.1, pair.2)) →
    (∀ t ∈ ts, ∀ x, Q x t.entry.2 → ∃ z, t.value = z.norm ∧ x.Leafwise R z) →
    ∃ zs : Fields, List.Forall₂ (fun a b => b.1 = a.1 ∧ a.2.Leafwise R b.2) fields zs
      ∧ List.Forall₂ (fun field t => t.entry.1 = .ofString field.1 ∧ t.value = field.2.norm)
        (zs.filter fun field => !field.2.isNil) ts := by
  induction h with
  | nil =>
    intro ts hts _
    obtain rfl := List.map_eq_nil_iff.1 hts
    exact ⟨[], .nil, .nil⟩
  | @cons field pair fields pairs hx _ ih =>
    intro ts hts hread
    obtain ⟨name, x⟩ := field
    obtain ⟨name', v⟩ := pair
    obtain ⟨rfl, hx⟩ : name' = name ∧ Q x v := hx
    have hisNil := hQ x v hx
    rw [List.filter_cons] at hts
    cases hv : v.isNil with
    | true =>
      rw [hv] at hts
      obtain ⟨zs, hzs, hturns⟩ := ih hts hread
      have hx' := leafwise_nil hnil (hisNil.symm.trans hv)
      exact ⟨(name', .nil) :: zs, .cons ⟨rfl, hx'⟩ hzs, hturns⟩
    | false =>
      rw [hv] at hts
      obtain ⟨t, ts, rfl, hentry, hts⟩ := List.map_eq_cons_iff.1 hts
      obtain ⟨z, hz, hleafwise⟩ := hread t List.mem_cons_self x (hentry ▸ hx)
      obtain ⟨zs, hzs, hturns⟩ := ih hts fun t ht => hread t (List.mem_cons_of_mem _ ht)
      refine ⟨(name', z) :: zs, .cons ⟨rfl, hleafwise⟩ hzs, ?_⟩
      have hz' : z.isNil = false := (hleafwise.isNil hR).trans (hisNil.symm.trans hv)
      rw [List.filter_cons, hz']
      exact .cons ⟨congrArg Prod.fst hentry, hz⟩ hturns

end Turns

/-! ## Tables that were made

A table that was made for an aggregate is offered to every codec before it is read as a table, in
whatever state the heap is by then.  It is on the account of the course, so no codec may claim it or
change it. -/

section Made

variable {g₀ : GuestState}

/-- A table that was made for an aggregate is still there, and is left alone by all codecs. -/
theorem table_of_made (hdisjoint : c.Disjoint codecs g₀) (hkept : c.Undisturbed codecs g₀)
    (hq : c.Possible codecs g₀ q) (hw : Hosts codecs s w q)
    (hmade : (.table id, .aggregate t) ∈ q.made) :
    (w.state s).table id = t ∧ (offer s (.table id) c.codecs).on w = (.ok none, w) := by
  rw [hw.heap]
  refine ⟨GuestState.table_of_getElem? ((hkept q hq).tables id t hmade), ?_⟩
  refine on_offer_declined fun entry hentry codec hcodec => ?_
  rw [hw.heap]
  exact hdisjoint.structural q hq _ t hmade entry hentry (fun h => nomatch h) codec
    (hw.codecs ▸ hcodec)

/-- What is read in its turn is read as what it is read as at that moment. -/
theorem exists_of_turn {path : List Nat} (hw : Hosts codecs s w q)
    (hpq : p.Leads (c.codecFor codecs) q) (hroom : room ≤ left)
    (hpath : ∀ id ∈ path, p.heap.tables.size ≤ id)
    (hts : InTurn (c.toValueAt s left path) w ts u) : ∀ t ∈ ts, ∀ x,
      ReadsBack c codecs s R p room t.entry.2 x → ∃ z, t.value = z.norm ∧ x.Leafwise R z := by
  intro t ht x hx
  obtain ⟨-, hturns, -⟩ := hts.dealt
    (c.keeps_toValueAt s World.handsOut_dealt trivial left path)
  obtain ⟨hbefore, -, -, hrun⟩ := hturns t ht
  obtain ⟨z, u', hz, hleafwise⟩ := hx.reads t.before q left path hpq (hw.dealt hbefore) hroom hpath
  rw [hrun] at hz
  exact ⟨z, Except.ok.inj (Prod.mk.inj hz).1, hleafwise⟩

/-- A course goes on with a new table for an aggregate. -/
def withTable (p : Course) (t : GuestTable) : Course :=
  ⟨(p.heap.newTable t).2, (.table (p.heap.newTable t).1, .aggregate t) :: p.made⟩

/-- The table that was made last is not inside tables that are made later. -/
theorem not_mem_of_withTable (hpath : ∀ id ∈ path, (withTable p t).heap.tables.size ≤ id) :
    (p.heap.newTable t).1 ∉ path
      ∧ ∀ id ∈ (p.heap.newTable t).1 :: path, p.heap.tables.size ≤ id := by
  have hsize : (withTable p t).heap.tables.size = p.heap.tables.size + 1 := Array.size_push t
  rw [hsize] at hpath
  refine ⟨fun hmem => Nat.not_succ_le_self _ (hpath _ hmem), fun id hid => ?_⟩
  rcases List.mem_cons.1 hid with rfl | hid
  · exact Nat.le_refl _
  · exact Nat.le_of_succ_le (hpath id hid)

variable (hdisjoint : c.Disjoint codecs g₀) (hkept : c.Undisturbed codecs g₀)
  (hp : c.Possible codecs g₀ p)

include hdisjoint hkept hp

/-- A new table without a metatable is read back if, wherever it is found, its values are read in
turn and put together to what is leaf by leaf like the aggregate. -/
theorem readsBack_withTable (ht : p.heap.Structural t) (hmeta : t.metatable = none)
    (hnames : HasNames t.entries) (hnil : x.isNil = false)
    (hvalues : ∀ entry ∈ t.entries, ∃ y, ReadsBack c codecs s R p room entry.2 y)
    (htogether : ∀ ts : List Turn, ts.map (·.entry) = t.entries →
      (∀ turn ∈ ts, ∀ y, ReadsBack c codecs s R p room turn.entry.2 y →
        ∃ z, turn.value = z.norm ∧ y.Leafwise R z) →
      ∃ z, putTogether (Shape.ofKeys ((ts.map (·.entry)).map (·.1.keyKind))) ts = z.norm
        ∧ x.Leafwise R z) :
    ReadsBack c codecs s R (withTable p t) (room + 1) (.table (p.heap.newTable t).1) x := by
  have hstep : p.Leads (c.codecFor codecs) (withTable p t) := .single (.table ht)
  refine ⟨hnil.symm, fun w q remaining path hq hw hroom hpath => ?_⟩
  obtain ⟨left, rfl⟩ : ∃ left, remaining = left + 1 := ⟨remaining - 1, by omega⟩
  obtain ⟨hnew, hpath⟩ := not_mem_of_withTable hpath
  have hmade : (.table (p.heap.newTable t).1, .aggregate t) ∈ q.made :=
    hq.made _ List.mem_cons_self
  obtain ⟨htable, hoffer⟩ := table_of_made hdisjoint hkept ((hp.trans hstep).trans hq) hw hmade
  have hroom := Nat.le_of_succ_le_succ hroom
  have hread : ∀ entry ∈ t.entries, ∀ u, w.Dealt u → ∃ y u',
      (c.toValueAt s left ((p.heap.newTable t).1 :: path) entry.2).on u = (.ok y, u') := by
    intro entry hentry u hu
    obtain ⟨y, hy⟩ := hvalues entry hentry
    obtain ⟨z, u', hz, -⟩ := hy.reads u q left _ (hstep.trans hq) (hw.dealt hu) hroom hpath
    exact ⟨_, u', hz⟩
  obtain ⟨ts, u, hts, hentries, hrun⟩ := exists_turns htable hnew hoffer hmeta hnames hread
  obtain ⟨z, hz, hleafwise⟩ := htogether ts hentries
    (exists_of_turn hw (hstep.trans hq) hroom hpath hts)
  exact ⟨z, u, hz ▸ hrun, hleafwise⟩

/-- **A sequence is read back** if its values are. -/
theorem readsBack_sequence (hR : ∀ x z, R x z → z.isNil = x.isNil) (hnil : R .nil .nil)
    {items : List Value} {values : List GuestValue} (hne : items ≠ [])
    (short : items.length < 2 ^ 63)
    (h : List.Forall₂ (fun x v => ReadsBack c codecs s R p room v x) items values) :
    ReadsBack c codecs s R (withTable p (.ofSequence values)) (room + 1)
      (.table (p.heap.newTable (.ofSequence values)).1) (.array items) := by
  have hshort : values.length < 2 ^ 63 := h.length_eq ▸ short
  refine readsBack_withTable hdisjoint hkept hp (.sequence values) rfl (hasNames_ofSequence hshort)
    rfl (fun entry hentry => ?_) fun ts hentries hturns => ?_
  · rw [GuestTable.entries_ofSequence hshort] at hentry
    obtain ⟨place, hplace, rfl⟩ := List.mem_map.1 hentry
    obtain ⟨y, -, hy⟩ := exists_of_forall₂ h.flip (of_mem_present hplace).1
    exact ⟨y, hy⟩
  · rw [GuestTable.entries_ofSequence hshort] at hentries
    obtain ⟨zs, hzs, hplaces⟩ := exists_items_of_turns (fun _ _ hx => hx.isNil) hR hnil h hentries
      hturns
    refine ⟨.array zs, ?_, Value.leafwise_array hzs⟩
    rw [Value.norm_array]
    refine putTogether_sequence (fun hempty => hne ?_) ?_ ?_
    · rw [List.map_eq_nil_iff.1 hempty] at hzs
      cases hzs
      rfl
    · rw [List.length_map, ← hzs.length_eq]
      exact short
    · rw [present_map Value.norm zs (fun z _ => Value.isNil_norm z), List.forall₂_map_left_iff]
      exact hplaces

/-- **A table of fields is read back** if its values are. -/
theorem readsBack_fields (hR : ∀ x z, R x z → z.isNil = x.isNil) (hnil : R .nil .nil)
    {fields : Fields} {pairs : List (String × GuestValue)} (sorted : fields.Sorted)
    (h : List.Forall₂ (fun field pair => pair.1 = field.1
      ∧ ReadsBack c codecs s R p room pair.2 field.2) fields pairs) :
    ReadsBack c codecs s R (withTable p (.ofFields pairs)) (room + 1)
      (.table (p.heap.newTable (.ofFields pairs)).1) (.object fields) := by
  have hnamesEq : fields.map (·.1) = pairs.map (·.1) :=
    map_eq_map_of_forall₂ (fun _ _ hr => hr.1.symm) h
  have hpairs : pairs.Pairwise fun a b => a.1 < b.1 := by
    rw [← List.pairwise_map, ← hnamesEq]
    exact List.pairwise_map.2 sorted
  refine readsBack_withTable hdisjoint hkept hp (.fields pairs) (GuestTable.add_metatable _ _)
    (hasNames_ofFields hpairs) rfl (fun entry hentry => ?_) fun ts hentries hturns => ?_
  · obtain ⟨pair, hpair, rfl⟩ := keys_ofFields (nodup_names hpairs) hentry
    obtain ⟨field, -, -, hy⟩ := exists_of_forall₂ h.flip hpair
    exact ⟨field.2, hy⟩
  · rw [GuestTable.entries_ofFields (nodup_names hpairs)] at hentries
    obtain ⟨zs, hzs, hfields⟩ := exists_fields_of_turns
      (Q := fun y v => ReadsBack c codecs s R p room v y) (fun _ _ hx => hx.isNil) hR hnil h
      hentries hturns
    refine ⟨.object zs, ?_, Value.leafwise_object hzs⟩
    have hordered : (zs.map (·.1)).Pairwise (· < ·) := by
      have hnames : fields.map (·.1) = zs.map (·.1) :=
        map_eq_map_of_forall₂ (fun _ _ hr => hr.1.symm) hzs
      rw [← hnames]
      exact List.pairwise_map.2 sorted
    have hsorted : Fields.Sorted zs := List.pairwise_map.1 hordered
    rw [Value.norm_object]
    refine putTogether_fields (List.pairwise_map.2 (hsorted.filter _)) ?_
    rw [List.forall₂_map_left_iff]
    exact hfields

/-- A new table that is marked is read back as an empty array. -/
theorem readsBack_marked {m : Nat} (hm : p.heap.arrayMarker = some m) :
    ReadsBack c codecs s R (withTable p { metatable := some m }) 1
      (.table (p.heap.newTable { metatable := some m }).1) (.array []) := by
  have hstep : p.Leads (c.codecFor codecs) (withTable p { metatable := some m }) :=
    .single (.table (.marked hm))
  refine ⟨rfl, fun w q remaining path hq hw hroom hpath => ?_⟩
  obtain ⟨left, rfl⟩ : ∃ left, remaining = left + 1 := ⟨remaining - 1, by omega⟩
  obtain ⟨hnew, -⟩ := not_mem_of_withTable hpath
  have hmade : (.table (p.heap.newTable { metatable := some m }).1,
      .aggregate { metatable := some m }) ∈ q.made := hq.made _ List.mem_cons_self
  have hpossible := (hp.trans hstep).trans hq
  obtain ⟨htable, hoffer⟩ := table_of_made hdisjoint hkept hpossible hw hmade
  have hmarked : (w.state s).isMarkedArray ((w.state s).table
      (p.heap.newTable { metatable := some m }).1) = .ok true := by
    rw [htable, hw.heap]
    exact GuestState.isMarkedArray_of_isMarker rfl ((hkept q hpossible).markers _ _ m hmade rfl)
  refine ⟨.array [], w, ?_, .array rfl fun i x z hx => absurd hx (by simp)⟩
  rw [on_toValueAt_unclaimed hoffer, on_tableToValue_empty hnew (Nat.succ_ne_zero left)
    (by rw [htable]) hmarked]
  rfl

end Made

/-! ## Putting values in -/

section GoingThrough

variable {g₀ : GuestState}

/-- A value that is put into a guest state is no deeper than the limit allows, and what it has
become is read back from then on. -/
def GoesThrough (c : Converter) (codecs : Array Codec) (g₀ : GuestState) (s : Nat)
    (R : Value → Value → Prop) (x : Value) : Prop :=
  ∀ (n : Nat) (w : World) (p : Course) (v : GuestValue) (w' : World), c.Possible codecs g₀ p →
    Hosts codecs s w p → (c.fromValueAt s n x).on w = (.ok v, w') →
    x.depth ≤ n ∧ ∃ q, p.Leads (c.codecFor codecs) q ∧ Hosts codecs s w' q
      ∧ ReadsBack c codecs s R q x.depth v x

/-- Elements are put in one after the other. -/
theorem itemsFromValue_goesThrough {items : List Value}
    (h : ∀ x ∈ items, GoesThrough c codecs g₀ s R x) (n : Nat) :
    ∀ {w : World} {p : Course} {values : List GuestValue} {w' : World}, c.Possible codecs g₀ p →
      Hosts codecs s w p → (c.itemsFromValue s n items).on w = (.ok values, w') →
      Value.depthItems items ≤ n ∧ ∃ q, p.Leads (c.codecFor codecs) q ∧ Hosts codecs s w' q
        ∧ List.Forall₂ (fun x v => ReadsBack c codecs s R q (Value.depthItems items) v x)
          items values := by
  induction items with
  | nil =>
    intro w p values w' _ hw hrun
    cases hrun
    exact ⟨Nat.zero_le n, p, .refl, hw, .nil⟩
  | cons x rest ih =>
    intro w p values w' hp hw hrun
    rw [itemsFromValue] at hrun
    obtain ⟨v, w₁, hfirst, hrun⟩ := Conversion.exists_of_on_bind hrun
    obtain ⟨others, w₂, hothers, hrun⟩ := Conversion.exists_of_on_bind hrun
    cases hrun
    obtain ⟨hdepth, q₁, hq₁, hw₁, hv⟩ := h x List.mem_cons_self n w p v w₁ hp hw hfirst
    obtain ⟨hdepth', q₂, hq₂, hw₂, hall⟩ :=
      ih (fun y hy => h y (List.mem_cons_of_mem x hy)) (hp.trans hq₁) hw₁ hothers
    rw [Value.depthItems]
    refine ⟨Nat.max_le.2 ⟨hdepth, hdepth'⟩, q₂, hq₁.trans hq₂, hw₂, .cons ?_ ?_⟩
    · exact hv.mono hq₂ (Nat.le_max_left _ _)
    · exact hall.imp fun _ _ hx => hx.mono .refl (Nat.le_max_right _ _)

variable (hdisjoint : c.Disjoint codecs g₀) (hkept : c.Undisturbed codecs g₀)
  (hR : ∀ x z, R x z → z.isNil = x.isNil) (hnil : R .nil .nil)

include hdisjoint hkept

/-- An empty array goes in as a marked table. -/
theorem goesThrough_array_nil : GoesThrough c codecs g₀ s R (.array []) := by
  intro n w p v w' hp hw hrun
  rw [fromValueAt] at hrun
  by_cases hn : n = 0
  · rw [if_pos hn] at hrun
    cases hrun
  · rw [if_neg hn] at hrun
    cases hrun
    let marked : Course := ⟨p.heap.arrayMarkerTable.2, p.made⟩
    have hmarked : p.Leads (c.codecFor codecs) marked := .single .marker
    have hm : marked.heap.arrayMarker = some p.heap.arrayMarkerTable.1 := by
      show p.heap.arrayMarkerTable.2.arrayMarker = _
      rw [GuestState.arrayMarkerTable]
      cases hmarker : p.heap.arrayMarker with
      | some id => exact hmarker
      | none => rfl
    have hstep : marked.Leads (c.codecFor codecs)
        (withTable marked { metatable := some p.heap.arrayMarkerTable.1 }) :=
      .single (.table (.marked hm))
    refine ⟨Nat.one_le_iff_ne_zero.2 hn, _, hmarked.trans hstep, ?_, ?_⟩
    · exact hw.setState (by rw [hw.heap]; rfl)
    · rw [hw.heap]
      exact readsBack_marked hdisjoint hkept (hp.trans hmarked) hm

include hR hnil

theorem goesThrough_array {items : List Value} (short : items.length < 2 ^ 63)
    (h : ∀ x ∈ items, GoesThrough c codecs g₀ s R x) :
    GoesThrough c codecs g₀ s R (.array items) := by
  by_cases hne : items = []
  · rw [hne]
    exact goesThrough_array_nil hdisjoint hkept
  · intro n w p v w' hp hw hrun
    have hempty : items.isEmpty = false := List.isEmpty_eq_false_iff.2 hne
    rw [fromValueAt] at hrun
    by_cases hn : n = 0
    · rw [if_pos hn] at hrun
      cases hrun
    · rw [if_neg hn, hempty] at hrun
      obtain ⟨values, w₁, hitems, hrun⟩ := Conversion.exists_of_on_bind hrun
      cases hrun
      obtain ⟨hdepth, q, hq, hw₁, hall⟩ := itemsFromValue_goesThrough h (n - 1) hp hw hitems
      rw [Value.depth]
      have hstep : q.Leads (c.codecFor codecs) (withTable q (.ofSequence values)) :=
        .single (.table (.sequence values))
      refine ⟨by omega, _, hq.trans hstep, ?_, ?_⟩
      · exact hw₁.setState (by rw [hw₁.heap]; rfl)
      · rw [hw₁.heap]
        exact readsBack_sequence hdisjoint hkept (hp.trans hq) hR hnil hne short hall

theorem goesThrough_object {fields : Fields} (sorted : fields.Sorted)
    (h : ∀ field ∈ fields, GoesThrough c codecs g₀ s R field.2) :
    GoesThrough c codecs g₀ s R (.object fields) := by
  intro n w p v w' hp hw hrun
  rw [fromValueAt] at hrun
  by_cases hn : n = 0
  · rw [if_pos hn] at hrun
    cases hrun
  · rw [if_neg hn] at hrun
    obtain ⟨pairs, w₁, hfields, hrun⟩ := Conversion.exists_of_on_bind hrun
    cases hrun
    rw [fieldsFromValue_on] at hfields
    have hvalues : ∀ x ∈ fields.map (·.2), GoesThrough c codecs g₀ s R x := by
      intro x hx
      obtain ⟨field, hfield, rfl⟩ := List.mem_map.1 hx
      exact h field hfield
    rcases hitems : (c.itemsFromValue s (n - 1) (fields.map (·.2))).on w with ⟨e | values, w₂⟩
    · rw [hitems] at hfields
      cases hfields
    · rw [hitems] at hfields
      cases hfields
      obtain ⟨hdepth, q, hq, hw₁, hall⟩ := itemsFromValue_goesThrough hvalues (n - 1) hp hw hitems
      rw [Value.depth, Value.depthFields_eq]
      have hstep : q.Leads (c.codecFor codecs)
          (withTable q (.ofFields ((fields.map (·.1)).zip values))) := .single (.table (.fields _))
      refine ⟨by omega, _, hq.trans hstep, ?_, ?_⟩
      · exact hw₁.setState (by rw [hw₁.heap]; rfl)
      · rw [hw₁.heap]
        exact readsBack_fields hdisjoint hkept (hp.trans hq) hR hnil sorted (zip_forall₂ hall)

/-- **A tree comes back if its leaves do.** -/
theorem goesThrough (hx : x.Leaves (GoesThrough c codecs g₀ s R)) :
    GoesThrough c codecs g₀ s R x := by
  induction hx with
  | leaf _ h => exact h
  | array short _ ih => exact goesThrough_array hdisjoint hkept hR hnil short ih
  | object sorted _ ih => exact goesThrough_object hdisjoint hkept hR hnil sorted ih

end GoingThrough

end Converter
end ScriptPool
