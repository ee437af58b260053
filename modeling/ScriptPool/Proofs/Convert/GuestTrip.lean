import ScriptPool.Proofs.Convert.Graph
import ScriptPool.Proofs.Interpreter.Objects

/-!
# Round trips of guest values

A tree of tables that is handed to the host and put back into a guest comes back as another tree,
with the same keys and with equal values under them.  What it is on the host side depends on its
keys: a table with the keys `1, …, n` becomes an array, one with text keys an object, and text is
all that a field name can give back.

The host has one kind of number.  An integer comes back as the same integer as long as a float
stands for it exactly; a float comes back as an integer if it stands for one, and that integer is
equal to it.  Strings come back byte for byte, as those that are not text are kept as they are.

## What is here

* `IsTree` — a tree of tables within a limit, none of which has a metatable or is claimed by a
  codec.
* `Depicts` — what the host gets to see of a value, and `toValueAt_tree`, that it does.
* `Mirrors` — a value has come back, and `comesBack`, that it does.
* `guest_roundTrip` — the two together.
-/

set_option autoImplicit false

namespace ScriptPool

/-! ## Keys -/

namespace GuestTable

/-- The keys of a table, in the order in which they are enumerated. -/
def keys (t : GuestTable) : List GuestValue := t.entries.map (·.1)

/-- The keys `1, …, n`. -/
def firstKeys (n : Nat) : List GuestValue :=
  (List.range n).map fun place => .ofInt ((place + 1 : Nat) : Int)

/-- The keys are `1, …, n`, which are integers of the guest. -/
def IsSequence (t : GuestTable) : Prop := ∃ n, n < 2 ^ 63 ∧ t.keys.Perm (firstKeys n)

/-- The keys are text. -/
def IsRecord (t : GuestTable) : Prop := ∀ key ∈ t.keys, ∃ name : String, key = .ofString name

variable {t : GuestTable} {key : GuestValue} {n : Nat}

theorem map_keys {α : Type} (f : GuestValue → α) (t : GuestTable) :
    t.keys.map f = t.entries.map fun entry => f entry.1 := by
  rw [keys, List.map_map]
  rfl

theorem rawEqual_firstKeys (h : key ∈ firstKeys n) : key.rawEqual key = true := by
  obtain ⟨place, -, rfl⟩ := List.mem_map.1 h
  exact beq_self_eq_true _

theorem getElem?_firstKeys {place : Nat} (h : (firstKeys n)[place]? = some key) :
    place < n ∧ key = .ofInt ((place + 1 : Nat) : Int) := by
  rw [firstKeys, List.getElem?_map, Option.map_eq_some_iff] at h
  obtain ⟨i, hi, rfl⟩ := h
  obtain ⟨hlt, rfl⟩ := List.getElem?_eq_some_iff.1 hi
  rw [List.length_range] at hlt
  exact ⟨hlt, by rw [List.getElem_range]⟩

theorem ofString_injective : Function.Injective GuestValue.ofString := fun _ _ h =>
  String.toByteArray_inj.1 (GuestValue.string.inj h)

theorem rawEqual_ofString (name : String) :
    (GuestValue.ofString name).rawEqual (.ofString name) = true :=
  beq_self_eq_true name.toUTF8

/-- A key that equals itself has its value. -/
theorem mem_entries_of_mem_keys (h : key ∈ t.keys) (hself : key.rawEqual key = true) :
    (key, t.find key) ∈ t.entries := by
  obtain ⟨⟨other, value⟩, he, rfl⟩ := List.mem_map.1 h
  rwa [find_of_mem (t.keyed.keys _ he) hself he]

theorem nodup_keys (hself : ∀ key ∈ t.keys, key.rawEqual key = true) : t.keys.Nodup := by
  refine List.pairwise_map.2 (t.keyed.distinct.imp_of_mem fun {a b} ha _ hne heq => ?_)
  rw [← heq, hself a.1 (List.mem_map_of_mem ha)] at hne
  cases hne

theorem keyKind_firstKeys (h : n < 2 ^ 63) :
    (firstKeys n).map GuestValue.keyKind = Shape.indices n := by
  rw [firstKeys, List.map_map, Shape.indices]
  refine List.map_congr_left fun place hp => GuestValue.keyKind_ofInt ?_
  have hlt := List.mem_range.1 hp
  omega

end GuestTable

namespace Converter

open GuestTable

/-! ## Trees

Three descriptions belong together: which values of the guest can make the trip, what the host sees
of such a value, and what it means that a value of another heap is the same again. -/

/-- A tree of tables within a limit, of values that can come back.  Its tables have no metatables
and are not claimed by a codec. -/
inductive IsTree (c : Converter) (s : Nat) (w : World) : Nat → GuestValue → Prop where
  | boolean {n : Nat} (b : Bool) : IsTree c s w n (.boolean b)
  | integer {n : Nat} {i : Int64} (exact : i.toInt.natAbs ≤ 2 ^ 53) : IsTree c s w n (.integer i)
  | float {n : Nat} (x : Float) : IsTree c s w n (.float x)
  | string {n : Nat} (bytes : ByteArray) : IsTree c s w n (.string bytes)
  | table {n id : Nat} (plain : ((w.state s).table id).metatable = none)
      (unclaimed : (offer s (.table id) c.codecs).on w = (.ok none, w))
      (keys : ((w.state s).table id).IsSequence ∨ ((w.state s).table id).IsRecord)
      (values : ∀ entry ∈ ((w.state s).table id).entries, IsTree c s w n entry.2) :
      IsTree c s w (n + 1) (.table id)

/-- What the host sees of a value, within a limit. -/
inductive Depicts (g : GuestState) : Nat → GuestValue → Value → Prop where
  | bool {n : Nat} (b : Bool) : Depicts g n (.boolean b) (.bool b)
  | integer {n : Nat} {i : Int64} (exact : i.toInt.natAbs ≤ 2 ^ 53) :
      Depicts g n (.integer i) (.number (Float.ofInt i.toInt))
  | float {n : Nat} (x : Float) : Depicts g n (.float x) (.number x)
  | text {n : Nat} (text : String) : Depicts g n (.ofString text) (.string text)
  | bytes {n : Nat} (bytes : ByteArray) (h : Handle) :
      Depicts g n (.string bytes) (.custom ⟨"bytes", .bytes bytes, h⟩)
  | array {n id : Nat} {items : List Value} (nonempty : items ≠ []) (short : items.length < 2 ^ 63)
      (keys : (g.table id).keys.Perm (firstKeys items.length))
      (values : ∀ key x, (key, x) ∈ (firstKeys items.length).zip items →
        Depicts g n ((g.table id).find key) x) :
      Depicts g (n + 1) (.table id) (.array items)
  | object {n id : Nat} {fields : Fields} (sorted : fields.Sorted)
      (keys : (g.table id).keys.Perm (fields.map fun field => .ofString field.1))
      (values : ∀ field ∈ fields, Depicts g n ((g.table id).find (.ofString field.1)) field.2) :
      Depicts g (n + 1) (.table id) (.object fields)

/-- A value of one heap has come back as a value of another: tables as tables without a metatable,
with the same keys and with what the values under them have come back as; booleans and strings as
they are; numbers as what the language finds equal to them, but for what is not a number. -/
inductive Mirrors (g g' : GuestState) : GuestValue → GuestValue → Prop where
  | boolean (b : Bool) : Mirrors g g' (.boolean b) (.boolean b)
  | string (bytes : ByteArray) : Mirrors g g' (.string bytes) (.string bytes)
  | number {v v' : GuestValue} (numeric : v.scriptType = "number") (equal : v.rawEqual v' = true) :
      Mirrors g g' v v'
  | nan {x y : Float} (hx : x.isNaN = true) (hy : y.isNaN = true) : Mirrors g g' (.float x) (.float y)
  | table {id id' : Nat} (there : id' < g'.tables.size) (plain : (g'.table id').metatable = none)
      (keys : (g'.table id').keys.Perm (g.table id).keys)
      (values : ∀ key ∈ (g.table id).keys,
        Mirrors g g' ((g.table id).find key) ((g'.table id').find key)) :
      Mirrors g g' (.table id) (.table id')

variable {c : Converter} {s root remaining left id n : Nat} {w w' w₀ : World} {g g' g'' : GuestState}
  {v v' : GuestValue} {x : Value} {t : GuestTable} {path : List Nat}

/-! ## Handing a tree out

What the host sees is known from the conversion of graphs.  What is left to show is that a tree
fits: none of its tables is on its own trail, and its keys can be written as names. -/

/-- What the codecs say of a value depends on the states and the codecs only. -/
theorem on_offer_of_dealt (h : w.Dealt w') (codecs : List (String × Nat)) :
    (offer s v codecs).on w' = (((offer s v codecs).on w).1, w') := by
  induction codecs with
  | nil => rfl
  | cons entry rest ih =>
    obtain ⟨tag, k⟩ := entry
    rw [offer, Conversion.on_get_bind, Conversion.on_get_bind, h.codecs, h.state]
    cases w.codecs[k]? with
    | none => exact ih
    | some codec =>
      dsimp only
      cases codec.decode (w.state s) v with
      | error e => rfl
      | ok claimed =>
        cases claimed with
        | none => exact ih
        | some payload => rfl

/-- A table that no codec claims is converted as a table. -/
theorem on_toValueAt_unclaimed (h : (offer s (.table id) c.codecs).on w = (.ok none, w)) :
    (c.toValueAt s (left + 1) path (.table id)).on w
      = (c.tableToValue s (left + 1) path (c.toValueAt s left) id).on w := by
  rw [toValueAt]
  exact Conversion.on_bind_ok h

theorem IsTree.fits (h : IsTree c s w n v) : (w.state s).Fits n v := by
  induction h with
  | table _ _ _ _ ih => exact GuestState.fits_table_succ.2 ih
  | _ => exact GuestState.fits_of_ne_table (fun _ he => by cases he) _

/-- A key of a tree equals itself. -/
theorem rawEqual_keys (h : t.IsSequence ∨ t.IsRecord) {key : GuestValue} (hkey : key ∈ t.keys) :
    key.rawEqual key = true := by
  rcases h with ⟨n, -, hperm⟩ | hrecord
  · exact rawEqual_firstKeys (hperm.mem_iff.1 hkey)
  · obtain ⟨name, rfl⟩ := hrecord key hkey
    exact rawEqual_ofString name

/-- The keys `1, …, n` are written as field names, and each in its own way. -/
theorem exists_of_mem_firstKeys {key : GuestValue} (h : key ∈ firstKeys n) (short : n < 2 ^ 63) :
    ∃ place < n, key = .ofInt ((place + 1 : Nat) : Int)
      ∧ key.fieldName = .ok (toString (place + 1)) := by
  obtain ⟨place, hp, rfl⟩ := List.mem_map.1 h
  have hlt := List.mem_range.1 hp
  exact ⟨place, hlt, rfl, GuestValue.fieldName_ofInt (by omega)⟩

theorem hasNames_of_keys (h : t.IsSequence ∨ t.IsRecord) : HasNames t.entries := by
  have hnodup : t.keys.Nodup := nodup_keys fun key hkey => rawEqual_keys h hkey
  refine ⟨fun entry he => ?_, map_keys GuestValue.fieldName t ▸
    hnodup.map_on fun a ha b hb hab => ?_⟩
  · have hkey : entry.1 ∈ t.keys := List.mem_map_of_mem he
    rcases h with ⟨n, short, hperm⟩ | hrecord
    · obtain ⟨place, -, -, hname⟩ := exists_of_mem_firstKeys (hperm.mem_iff.1 hkey) short
      exact ⟨_, hname⟩
    · obtain ⟨name, hname⟩ := hrecord entry.1 hkey
      exact ⟨name, hname ▸ GuestValue.fieldName_ofString name⟩
  · rcases h with ⟨n, short, hperm⟩ | hrecord
    · obtain ⟨i, -, rfl, hi⟩ := exists_of_mem_firstKeys (hperm.mem_iff.1 ha) short
      obtain ⟨j, -, rfl, hj⟩ := exists_of_mem_firstKeys (hperm.mem_iff.1 hb) short
      have hij := Except.ok.inj (hi.symm.trans (hab.trans hj))
      rw [GuestValue.toString_injective hij]
    · obtain ⟨name, rfl⟩ := hrecord a ha
      obtain ⟨name', rfl⟩ := hrecord b hb
      rw [GuestValue.fieldName_ofString, GuestValue.fieldName_ofString] at hab
      rw [Except.ok.inj hab]

/-- Text is not an index, so a table with text keys is not an array. -/
theorem not_perm_indices (h : t.IsRecord) (hn : 1 ≤ n) :
    ¬ (t.entries.map (·.1.keyKind)).Perm (Shape.indices n) := by
  intro hperm
  have hfirst : Shape.keyOf 0 ∈ t.entries.map (·.1.keyKind) :=
    hperm.mem_iff.2 (List.mem_map_of_mem (List.mem_range.2 hn))
  obtain ⟨entry, he, hkind⟩ := List.mem_map.1 hfirst
  obtain ⟨name, hname⟩ := h entry.1 (List.mem_map_of_mem he)
  rw [hname] at hkind
  cases hkind

theorem keyKinds_of_perm (h : t.keys.Perm (firstKeys n)) (short : n < 2 ^ 63) :
    (t.entries.map (·.1.keyKind)).Perm (Shape.indices n) := by
  rw [← map_keys, ← keyKind_firstKeys short]
  exact h.map _

/-- A sequence whose values are depicted is depicted by the array that is assembled from it. -/
theorem depicts_array {items : List Value} (hperm : (g.table id).keys.Perm (firstKeys n))
    (short : n < 2 ^ 63) (h : Assembled (Depicts g left) (g.table id).entries (.array items)) :
    Depicts g (left + 1) (.table id) (.array items) := by
  obtain ⟨⟨hpos, hkinds⟩, hitems⟩ := h
  obtain rfl : items.length = n := by
    have hlen := (hkinds.symm.trans (keyKinds_of_perm hperm short)).length_eq
    rwa [Shape.indices, Shape.indices, List.length_map, List.length_map, List.length_range,
      List.length_range] at hlen
  refine .array (List.ne_nil_of_length_pos hpos) short hperm fun key y hy => ?_
  obtain ⟨place, hplace⟩ := List.mem_iff_getElem?.1 hy
  obtain ⟨hkey, hy⟩ := List.getElem?_zip_eq_some.1 hplace
  have hmem : key ∈ (g.table id).keys := hperm.mem_iff.2 (List.mem_of_getElem? hkey)
  obtain ⟨hlt, rfl⟩ := getElem?_firstKeys hkey
  have hentry := mem_entries_of_mem_keys hmem (rawEqual_keys (.inl ⟨_, short, hperm⟩) hmem)
  obtain ⟨z, hz, hdepicts⟩ := hitems _ hentry place (GuestValue.keyKind_ofInt (by omega))
  obtain rfl : z = y := Option.some.inj (hz.symm.trans hy)
  exact hdepicts

/-- A record whose values are depicted is depicted by the object that is assembled from it. -/
theorem depicts_object {fields : Fields} (hrecord : (g.table id).IsRecord)
    (h : Assembled (Depicts g left) (g.table id).entries (.object fields)) :
    Depicts g (left + 1) (.table id) (.object fields) := by
  obtain ⟨-, hsorted, hnames, hfields⟩ := h
  have hself : ∀ key ∈ (g.table id).keys, key.rawEqual key = true :=
    fun key hkey => rawEqual_keys (.inr hrecord) hkey
  -- a field is there for every key, and a key for every field
  have hentry : ∀ field ∈ fields, .ofString field.1 ∈ (g.table id).keys := by
    intro field hf
    obtain ⟨entry, he, hname⟩ := hnames field hf
    have hkey : entry.1 ∈ (g.table id).keys := List.mem_map_of_mem he
    obtain ⟨name, hname'⟩ := hrecord entry.1 hkey
    rw [hname', GuestValue.fieldName_ofString] at hname
    rwa [hname', Except.ok.inj hname] at hkey
  have hfield : ∀ name : String, .ofString name ∈ (g.table id).keys → ∃ y, (name, y) ∈ fields
      ∧ Depicts g left ((g.table id).find (.ofString name)) y := fun name hkey =>
    hfields _ (mem_entries_of_mem_keys hkey (hself _ hkey)) name
      (GuestValue.fieldName_ofString name)
  have hnodup : (fields.map fun field => GuestValue.ofString field.1).Nodup := by
    have hnames := (nodup_names hsorted).map ofString_injective
    rwa [List.map_map] at hnames
  refine .object hsorted ?_ fun field hf => ?_
  · refine (List.perm_ext_iff_of_nodup (nodup_keys hself) hnodup).2 fun key => ⟨fun hkey => ?_, ?_⟩
    · obtain ⟨name, rfl⟩ := hrecord key hkey
      obtain ⟨y, hy, -⟩ := hfield name hkey
      exact List.mem_map.2 ⟨_, hy, rfl⟩
    · intro hkey
      obtain ⟨field, hf, rfl⟩ := List.mem_map.1 hkey
      exact hentry field hf
  · obtain ⟨y, hy, hdepicts⟩ := hfield field.1 (hentry field hf)
    have heq := (Fields.get?_eq_some hsorted).2 hy
    rw [(Fields.get?_eq_some hsorted).2 hf] at heq
    rwa [Option.some.inj heq]

/-- What the host sees of a table in a tree is assembled from what it sees of the values. -/
theorem depicts_of_assembled (hkeys : (g.table id).IsSequence ∨ (g.table id).IsRecord)
    (hne : (g.table id).entries ≠ [])
    (h : Assembled (Depicts g left) (g.table id).entries x) : Depicts g (left + 1) (.table id) x := by
  have hempty : ¬ (g.table id).keys.Perm (firstKeys 0) := fun hperm =>
    hne (List.map_eq_nil_iff.1 (List.perm_nil.1 hperm))
  cases x with
  | array items =>
    rcases hkeys with ⟨n, short, hperm⟩ | hrecord
    · exact depicts_array hperm short h
    · exact absurd h.1.2 (not_perm_indices hrecord h.1.1)
  | object fields =>
    rcases hkeys with ⟨n, short, hperm⟩ | hrecord
    · have hpos : 1 ≤ n := Nat.pos_of_ne_zero fun h0 => hempty (h0 ▸ hperm)
      exact absurd (keyKinds_of_perm hperm short) (h.1 n hpos)
    · exact depicts_object hrecord h
  | _ => exact h.elim

/-- What is shown of handing a value of a tree out. -/
def depicting (g : GuestState) (remaining : Nat) : Behaviour where
  Grows := World.Dealt
  Shows _ v x := Depicts g remaining v x
  Fails _ _ := False
  refl := World.Dealt.refl
  trans := World.Dealt.trans
  mono _ h := h

theorem toUTF8_of_fromUTF8? {bytes : ByteArray} {text : String}
    (h : String.fromUTF8? bytes = some text) : text.toUTF8 = bytes := by
  rw [String.fromUTF8?] at h
  split at h
  · cases h
    rfl
  · cases h

/-- What is not a table is handed out. -/
theorem depicting_leaf (hv : ∀ id, v ≠ .table id) (h : IsTree c s w₀ remaining v) :
    (depicting g remaining).Meets v w ((c.leafToValue s v).on w) := by
  cases h with
  | boolean b => exact ⟨.refl w, .bool b⟩
  | integer exact => exact ⟨.refl w, .integer exact⟩
  | float x => exact ⟨.refl w, .float x⟩
  | string bytes =>
    rw [leafToValue]
    cases hs : String.fromUTF8? bytes with
    | some text =>
      obtain rfl := toUTF8_of_fromUTF8? hs
      exact ⟨.refl w, .text text⟩
    | none => exact ⟨⟨⟨rfl, fun _ _ h => h⟩, rfl, Nat.le_succ _⟩, .bytes bytes w.handles⟩
  | table => exact absurd rfl (hv _)

/-- **A tree is handed out**, and the host sees what it depicts.  No table of a tree is on its own
trail, as nothing on a cycle is within any limit. -/
theorem toValueAt_tree (remaining : Nat) : ∀ {path : List Nat} {v : GuestValue} {w : World},
    w₀.Dealt w → IsTree c s w₀ remaining v →
      (∀ id, v = .table id → (w₀.state s).Trail root path id) →
      (depicting (w₀.state s) remaining).Meets v w ((c.toValueAt s remaining path v).on w) := by
  induction remaining with
  | zero =>
    intro path v w hw h _
    have hv : ∀ id, v ≠ .table id := fun id he => by subst he; cases h
    rw [on_toValueAt_leaf hv]
    exact depicting_leaf hv h
  | succ left ih =>
    intro path v w hw h htrail
    by_cases hv : ∀ id, v ≠ .table id
    · rw [on_toValueAt_leaf hv]
      exact depicting_leaf hv h
    · obtain ⟨id, hid⟩ := not_forall_not.1 hv
      subst hid
      have htrail := htrail id rfl
      have hfresh : id ∉ path := fun hmem =>
        GuestState.not_fits_of_onCycle (htrail.onCycle hmem) _ h.fits
      cases h with
      | table plain unclaimed keys values =>
        have hg : w.state s = w₀.state s := hw.state s
        have hoffer : (offer s (.table id) c.codecs).on w = (.ok none, w) := by
          rw [on_offer_of_dealt hw, unclaimed]
        rw [on_toValueAt_unclaimed hoffer]
        by_cases hne : ((w₀.state s).table id).entries = []
        · have hm : (w.state s).isMarkedArray ((w.state s).table id) = .ok false := by
            rw [hg, GuestState.isMarkedArray, plain]
          rw [on_tableToValue_empty hfresh (Nat.succ_ne_zero left) (hg ▸ hne) hm]
          refine ⟨.refl w, .object .nil ?_ fun _ hf => absurd hf List.not_mem_nil⟩
          rw [GuestTable.keys, hne]
          exact .nil
        · rw [on_tableToValue_entries hfresh (Nat.succ_ne_zero left) (hg ▸ hne), hg]
          have hmeets : (depicting (w₀.state s) left).MeetsAll (c.toValueAt s left (id :: path))
              ((w₀.state s).table id).entries w := by
            rintro ⟨key, v⟩ hmem w' hw'
            refine ih (hw.trans hw') (values _ hmem) ?_
            rintro b rfl
            exact htrail.step ⟨key, hmem⟩
          obtain ⟨hgrows, hout⟩ := entriesToValue_meets hmeets (hasNames_of_keys keys)
          refine ⟨hgrows, ?_⟩
          cases hr : ((entriesToValue (c.toValueAt s left (id :: path))
              ((w₀.state s).table id).entries).on w).1 with
          | ok x =>
            rw [hr] at hout
            exact depicts_of_assembled keys hne hout
          | error e =>
            rw [hr] at hout
            obtain ⟨entry, -, hfails⟩ := hout
            exact hfails.elim

/-! ## Putting it back

Values are put back one after the other into a heap that grows, so what has come back is compared to
the original in every heap that comes later. -/

section Back

variable {s' : Nat} {keys : List GuestValue} {values : List GuestValue}

theorem Mirrors.isNil (h : Mirrors g g' v v') : v'.isNil = false := by
  cases h with
  | number numeric equal =>
    cases v' with
    | nil =>
      cases v with
      | nil => exact absurd numeric (by decide)
      | _ => cases equal
    | _ => rfl
  | _ => rfl

/-- What has come back is there as long as nothing of the heap goes away. -/
theorem Mirrors.mono (h : Mirrors g g' v v') (hg : g'.Extends g'') : Mirrors g g'' v v' := by
  induction h with
  | boolean b => exact .boolean b
  | string bytes => exact .string bytes
  | number numeric equal => exact .number numeric equal
  | nan hx hy => exact .nan hx hy
  | @table id id' there plain keys _ ih =>
    have htable : g''.table id' = g'.table id' :=
      GuestState.table_of_getElem? (hg.tables (GuestState.getElem?_tables there))
    rw [← htable] at plain keys ih
    exact .table (Nat.lt_of_lt_of_le there hg.size) plain keys ih

/-- A value can be put back, and mirrors the one that the host has seen. -/
def ComesBack (c : Converter) (s' : Nat) (g : GuestState) (remaining : Nat) (v : GuestValue)
    (x : Value) : Prop :=
  ∀ w : World, s' < w.states.size → ∃ v' w', (c.fromValueAt s' remaining x).on w = (.ok v', w')
    ∧ w.Adds w' ∧ Mirrors g (w'.state s') v v'

theorem itemsFromValue_comesBack {vs : List GuestValue} {items : List Value}
    (h : List.Forall₂ (ComesBack c s' g n) vs items) : ∀ {w : World}, s' < w.states.size →
      ∃ values w', (c.itemsFromValue s' n items).on w = (.ok values, w') ∧ w.Adds w'
        ∧ List.Forall₂ (Mirrors g (w'.state s')) vs values := by
  induction h with
  | nil => exact fun {w} _ => ⟨[], w, rfl, .refl w, .nil⟩
  | cons hv _ ih =>
    intro w hw
    obtain ⟨v', w₁, hv', hadds, hmirrors⟩ := hv w hw
    obtain ⟨values, w₂, hvalues, hadds', hall⟩ := ih (hadds.size ▸ hw)
    refine ⟨v' :: values, w₂, ?_, hadds.trans hadds', .cons (hmirrors.mono (hadds'.grows s')) hall⟩
    rw [itemsFromValue, Conversion.on_bind_ok hv', Conversion.on_bind_ok hvalues, Conversion.on_pure]

/-- A new table with the same keys, and with values that have come back, is a table that has. -/
theorem mirrors_newTable (hself : ∀ key ∈ keys, key.rawEqual key = true)
    (hkeys : (g.table id).keys.Perm keys)
    (hvalues : List.Forall₂ (Mirrors g g') (keys.map (g.table id).find) values)
    (hentries : t.entries = keys.zip values) (hmeta : t.metatable = none) :
    Mirrors g (g'.newTable t).2 (.table id) (.table (g'.newTable t).1) := by
  have hlen : keys.length = values.length := by
    rw [← hvalues.length_eq, List.length_map]
  have htable : (g'.newTable t).2.table (g'.newTable t).1 = t :=
    GuestState.table_of_getElem? (GuestState.getElem?_newTable g' t)
  have hkeys' : t.keys = keys := by
    rw [GuestTable.keys, hentries, List.map_fst_zip hlen.le]
  have hthere : (g'.newTable t).1 < (g'.newTable t).2.tables.size := by
    show g'.tables.size < (g'.tables.push t).size
    rw [Array.size_push]
    exact Nat.lt_succ_self _
  refine .table hthere (by rw [htable, hmeta]) ?_ fun key hkey => ?_
  · rw [htable, hkeys']
    exact hkeys.symm
  · have hkey' : key ∈ t.keys := hkeys' ▸ hkeys.mem_iff.1 hkey
    obtain ⟨⟨key, v'⟩, hentry, rfl⟩ := List.mem_map.1 hkey'
    have hfind : t.find key = v' :=
      GuestTable.find_of_mem (t.keyed.keys _ hentry) (hself key (hkeys.mem_iff.1 hkey)) hentry
    rw [htable, hfind]
    rw [hentries] at hentry
    have hmirrors := List.forall₂_zip (List.forall₂_map_left_iff.1 hvalues) hentry
    exact hmirrors.mono (GuestState.extends_newTable g' t)

/-- What has come back is not `nil`. -/
theorem filled_of_mirrors {vs : List GuestValue} (h : List.Forall₂ (Mirrors g g') vs values) :
    ∀ v' ∈ values, v'.isNil = false := by
  intro v' hv'
  obtain ⟨v, -, hmirrors⟩ := exists_of_forall₂ h.flip hv'
  exact Mirrors.isNil hmirrors

/-- Values that are there are under the first indices. -/
theorem entries_ofSequence_filled (h : ∀ v ∈ values, v.isNil = false)
    (short : values.length < 2 ^ 63) :
    (GuestTable.ofSequence values).entries = (firstKeys values.length).zip values := by
  obtain ⟨hplaces, hvalues⟩ := present_of_filled h 0
  refine List.zip_of_prod ?_ ?_
  · rw [GuestTable.entries_ofSequence short, List.map_map, firstKeys, List.range_eq_range',
      ← hplaces, List.map_map]
    rfl
  · rw [GuestTable.entries_ofSequence short, List.map_map]
    exact hvalues

/-- Values that are there are under their names. -/
theorem entries_ofFields_filled {names : List String} (hnodup : names.Nodup)
    (h : ∀ v ∈ values, v.isNil = false) (hlen : names.length = values.length) :
    (GuestTable.ofFields (names.zip values)).entries
      = (names.map GuestValue.ofString).zip values := by
  have hnames : (names.zip values).map (·.1) = names := List.map_fst_zip hlen.le
  have hkept : (names.zip values).filter (fun field => !field.2.isNil) = names.zip values :=
    List.filter_eq_self.2 fun field hf => by
      rw [h field.2 (List.of_mem_zip hf).2, Bool.not_false]
  rw [GuestTable.entries_ofFields (hnames.symm ▸ hnodup), hkept, List.zip_map_left]
  rfl

/-- What needs nothing of the world comes back. -/
theorem comesBack_plain (hfrom : ∀ w, (c.fromValueAt s' n x).on w = (.ok v', w))
    (h : ∀ g', Mirrors g g' v v') : ComesBack c s' g n v x :=
  fun w _ => ⟨v', w, hfrom w, .refl w, h _⟩

theorem integer?_ofInt_of_le {i : Int} (h : i.natAbs ≤ 2 ^ 53) :
    Decimal.integer? (Float.ofInt i) = some i := by
  by_cases hlt : i.natAbs < 2 ^ 53
  · exact Decimal.integer?_ofInt hlt
  · obtain rfl | rfl : i = 2 ^ 53 ∨ i = -2 ^ 53 := by omega
    · decide +kernel
    · decide +kernel

/-- An integer for which a float stands exactly comes back as it was. -/
theorem ofNumber_ofInt {i : Int64} (h : i.toInt.natAbs ≤ 2 ^ 53) :
    GuestValue.ofNumber (Float.ofInt i.toInt) = .integer i := by
  rw [GuestValue.ofNumber, integer?_ofInt_of_le h]
  dsimp only
  rw [if_pos ⟨i.le_toInt, i.toInt_lt⟩, GuestValue.ofInt, Int64.ofInt_toInt]

/-- A float comes back as a number that the language finds equal to it, or as what is no number. -/
theorem mirrors_ofNumber (y : Float) : Mirrors g g' (.float y) (.ofNumber y) := by
  have hsame : Mirrors g g' (.float y) (.float y) := by
    cases hy : y.isNaN with
    | true => exact .nan hy hy
    | false => exact .number rfl (Decimal.beq_self hy)
  rw [GuestValue.ofNumber]
  cases hn : Decimal.integer? y with
  | none => exact hsame
  | some i =>
    dsimp only
    split
    · rename_i hrange
      refine .number rfl ?_
      rw [GuestValue.ofInt, GuestValue.rawEqual, hn, Int64.toInt_ofInt_of_le hrange.1 hrange.2]
      exact beq_self_eq_true _
    · exact hsame

/-- Items come back as a sequence, after they have come back one by one. -/
theorem comesBack_array {items : List Value} (hne : items ≠ []) (short : items.length < 2 ^ 63)
    (hkeys : (g.table id).keys.Perm (firstKeys items.length))
    (h : List.Forall₂ (ComesBack c s' g n) ((firstKeys items.length).map (g.table id).find) items) :
    ComesBack c s' g (n + 1) (.table id) (.array items) := by
  intro w hw
  obtain ⟨values, w', hvalues, hadds, hall⟩ := itemsFromValue_comesBack h hw
  have hlt : s' < w'.states.size := hadds.size ▸ hw
  have hlen : values.length = items.length := by
    rw [← hall.length_eq, List.length_map, firstKeys, List.length_map, List.length_range]
  have hentries := entries_ofSequence_filled (filled_of_mirrors hall) (hlen ▸ short)
  rw [hlen] at hentries
  have hempty : items.isEmpty = false := List.isEmpty_eq_false_iff.2 hne
  have hnew := GuestState.extends_newTable (w'.state s') (GuestTable.ofSequence values)
  refine ⟨.table ((w'.state s').newTable (GuestTable.ofSequence values)).1, _, ?_, hadds.trans (World.adds_setState hnew), ?_⟩
  · rw [fromValueAt, if_neg (Nat.succ_ne_zero n), Nat.add_sub_cancel, hempty]
    exact Conversion.on_bind_ok hvalues
  · rw [World.state_setState hlt]
    exact mirrors_newTable (fun key => rawEqual_firstKeys) hkeys hall hentries rfl

/-- Fields come back as a record, after their values have come back one by one. -/
theorem comesBack_object {fields : Fields} (sorted : fields.Sorted)
    (hkeys : (g.table id).keys.Perm (fields.map fun field => .ofString field.1))
    (h : List.Forall₂ (ComesBack c s' g n)
      (fields.map fun field => (g.table id).find (.ofString field.1)) (fields.map (·.2))) :
    ComesBack c s' g (n + 1) (.table id) (.object fields) := by
  intro w hw
  obtain ⟨values, w', hvalues, hadds, hall⟩ := itemsFromValue_comesBack h hw
  have hlt : s' < w'.states.size := hadds.size ▸ hw
  have hlen : (fields.map (·.1)).length = values.length := by
    rw [← hall.length_eq, List.length_map, List.length_map]
  have hentries := entries_ofFields_filled (nodup_names sorted) (filled_of_mirrors hall) hlen
  have hfields := fieldsFromValue_on (c := c) (s := s') n fields (w := w)
  rw [hvalues] at hfields
  let t := GuestTable.ofFields ((fields.map (·.1)).zip values)
  have hnew := GuestState.extends_newTable (w'.state s') t
  have hnames : fields.map (fun field => GuestValue.ofString field.1)
      = (fields.map (·.1)).map GuestValue.ofString := by
    rw [List.map_map]
    rfl
  have hall' : List.Forall₂ (Mirrors g (w'.state s'))
      (((fields.map (·.1)).map GuestValue.ofString).map (g.table id).find) values := by
    rw [List.map_map, List.map_map]
    exact hall
  refine ⟨.table ((w'.state s').newTable t).1, _, ?_, hadds.trans (World.adds_setState hnew), ?_⟩
  · rw [fromValueAt, if_neg (Nat.succ_ne_zero n), Nat.add_sub_cancel]
    exact Conversion.on_bind_ok hfields
  · rw [World.state_setState hlt]
    refine mirrors_newTable (fun key hkey => ?_) (hnames ▸ hkeys) hall' hentries
      (GuestTable.add_metatable _ _)
    obtain ⟨name, -, rfl⟩ := List.mem_map.1 hkey
    exact rawEqual_ofString name

/-- **What the host has seen of a tree comes back**, in any state. -/
theorem comesBack (h : Depicts g n v x) : ComesBack c s' g n v x := by
  induction h with
  | bool b => exact comesBack_plain (fun _ => rfl) fun _ => .boolean b
  | @integer n i exact =>
    refine comesBack_plain (fun _ => rfl) fun _ => .number rfl ?_
    rw [ofNumber_ofInt exact]
    exact beq_self_eq_true i
  | float y => exact comesBack_plain (fun _ => rfl) fun _ => mirrors_ofNumber y
  | text text => exact comesBack_plain (fun _ => rfl) fun _ => .string text.toUTF8
  | bytes bytes h => exact comesBack_plain (fun _ => rfl) fun _ => .string bytes
  | array nonempty short keys _ ih =>
    refine comesBack_array nonempty short keys (List.forall₂_map_left_iff.2 ?_)
    refine List.forall₂_iff_zip.2 ⟨?_, fun hmem => ih _ _ hmem⟩
    rw [firstKeys, List.length_map, List.length_range]
  | object sorted keys _ ih =>
    refine comesBack_object sorted keys ?_
    rw [List.forall₂_map_left_iff, List.forall₂_map_right_iff, List.forall₂_same]
    exact ih

end Back

/-! ## There and back -/

/-- **A tree makes the round trip.**  It is handed to the host, which changes no guest state, and
what the host has seen is put back, into the same state or another; no conversion fails.  What comes
back mirrors the tree: it has the same keys everywhere, and equal values under them.  Nothing of
what was in the heaps before has changed. -/
theorem guest_roundTrip {s' : Nat} (hs : s' < w.states.size) (hv : IsTree c s w c.maxDepth v) :
    ∃ x w₁ v' w₂, (c.toValue s v).on w = (.ok x, w₁) ∧ w₁.states = w.states
      ∧ (c.fromValue s' x).on w₁ = (.ok v', w₂) ∧ w.Adds w₂
      ∧ Mirrors (w.state s) (w₂.state s') v v' := by
  have hlifted : ∃ root, ∀ id, v = .table id → (w.state s).Trail root [] id := by
    cases v with
    | table id => exact ⟨id, fun _ he => GuestValue.table.inj he ▸ GuestState.trail_nil _ _⟩
    | _ => exact ⟨0, fun _ he => by cases he⟩
  obtain ⟨root, htrail⟩ := hlifted
  obtain ⟨hdealt, hout⟩ : (depicting (w.state s) c.maxDepth).Meets v w ((c.toValue s v).on w) :=
    toValueAt_tree c.maxDepth (.refl w) hv htrail
  cases hr : (c.toValue s v).on w with
  | mk r w₁ =>
    rw [hr] at hdealt hout
    have hdealt : w.Dealt w₁ := hdealt
    cases r with
    | error e => exact hout.elim
    | ok x =>
      have hs₁ : s' < w₁.states.size := hdealt.states ▸ hs
      obtain ⟨v', w₂, hback, hadds, hmirrors⟩ := comesBack hout w₁ hs₁
      have hgrown : w.Adds w₁ := ⟨hdealt.codecs, congrArg Array.size hdealt.states,
        fun s => hdealt.state s ▸ .refl _⟩
      exact ⟨x, w₁, v', w₂, rfl, hdealt.states, hback, hgrown.trans hadds, hmirrors⟩

/-- A list of a string that is not text and of a record with two numbers. -/
def listed : World where
  states := #[{ tables := #[.ofSequence [.string ⟨#[0xff]⟩, .table 1],
    .ofFields [("a", .float 1.5), ("b", .ofInt (2 ^ 53))]] }]

theorem guest_roundTrip_listed : IsTree {} 0 listed 32 (.table 0)
    ∧ ∃ x w₁ v' w₂, (({} : Converter).toValue 0 (.table 0)).on listed = (.ok x, w₁)
      ∧ w₁.states = listed.states ∧ (({} : Converter).fromValue 0 x).on w₁ = (.ok v', w₂)
      ∧ listed.Adds w₂ ∧ Mirrors (listed.state 0) (w₂.state 0) (.table 0) v' := by
  have hrecord : IsTree {} 0 listed 31 (.table 1) := by
    have hentries : ((listed.state 0).table 1).entries
        = [(.ofString "a", .float 1.5), (.ofString "b", .ofInt (2 ^ 53))] := rfl
    refine .table rfl rfl (.inr fun key hkey => ?_) fun entry he => ?_
    · rw [GuestTable.keys, hentries] at hkey
      rcases List.mem_pair.1 hkey with rfl | rfl
      · exact ⟨"a", rfl⟩
      · exact ⟨"b", rfl⟩
    · rw [hentries] at he
      rcases List.mem_pair.1 he with rfl | rfl
      · exact .float _
      · exact .integer (by decide)
  have hlist : IsTree {} 0 listed 32 (.table 0) := by
    refine .table rfl rfl (.inl ⟨2, by decide, .refl _⟩) fun entry he => ?_
    rcases List.mem_pair.1 he with rfl | rfl
    · exact .string _
    · exact hrecord
  exact ⟨hlist, guest_roundTrip Nat.zero_lt_one hlist⟩

end Converter
end ScriptPool
