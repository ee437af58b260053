import Mathlib.Data.List.Nodup
import ScriptPool.Proofs.Conversion
import ScriptPool.Proofs.Fields
import ScriptPool.Proofs.Shape

/-!
# Putting a table together

A table converts entry by entry.  This file says what comes of a table as a whole, given what comes
of the values in it, and it does so for any kind of statement about the values: what a `Behaviour`
says of every value in a table carries over to the table (`entriesToValue_meets`).

## What is here

* `Behaviour` — how conversions may change the world, what may come of a value and how it may fail.
* `Filled` — a vector that was written to slot by slot, each slot once.
* `Assembled` — a value that was put together from the entries of a table: either the keys are
  `1, …, n` and the items are in their places, or it is an object with a field for every entry.
* `entriesToValue_meets` — the result is assembled from what has come of the values, or one of the
  values has failed.
-/

set_option autoImplicit false

namespace ScriptPool

/-- What is to be shown of the conversions of the values in a table. -/
structure Behaviour where
  /-- How the world may change. -/
  Grows : World → World → Prop
  /-- What may come of a value, in the world afterwards. -/
  Shows : World → GuestValue → Value → Prop
  /-- How a value may fail to convert. -/
  Fails : GuestValue → ConvertError → Prop
  refl : ∀ w, Grows w w
  trans : ∀ {w w' w''}, Grows w w' → Grows w' w'' → Grows w w''
  /-- What has come of a value stays true while others are converted. -/
  mono : ∀ {w w' v x}, Grows w w' → Shows w v x → Shows w' v x

namespace Behaviour

/-- The result of converting a value in a world is as it should be. -/
def Meets (B : Behaviour) (v : GuestValue) (w : World)
    (out : Except ConvertError Value × World) : Prop :=
  B.Grows w out.2 ∧ match out.1 with
    | .ok x => B.Shows out.2 v x
    | .error e => B.Fails v e

/-- So it is for the values of all entries, in all worlds that may come about. -/
def MeetsAll (B : Behaviour) (convert : GuestValue → Conversion Value)
    (entries : List (GuestValue × GuestValue)) (w : World) : Prop :=
  ∀ entry ∈ entries, ∀ w', B.Grows w w' → B.Meets entry.2 w' ((convert entry.2).on w')

variable {B : Behaviour} {convert : GuestValue → Conversion Value}
  {entry : GuestValue × GuestValue} {entries : List (GuestValue × GuestValue)} {w w' : World}

theorem MeetsAll.head (h : B.MeetsAll convert (entry :: entries) w) :
    B.Meets entry.2 w ((convert entry.2).on w) := h entry List.mem_cons_self w (B.refl w)

theorem MeetsAll.tail (h : B.MeetsAll convert (entry :: entries) w) (hw : B.Grows w w') :
    B.MeetsAll convert entries w' := fun e he w'' hw' =>
  h e (List.mem_cons_of_mem entry he) w'' (B.trans hw hw')

end Behaviour

namespace Converter

variable {B : Behaviour} {convert : GuestValue → Conversion Value}

/-! ## Items

The items of an array are written into a vector one after the other, in the order in which the keys
are enumerated.  Since the keys are a permutation of the places, every slot is written once, and the
order of the writes is forgotten. -/

/-- What comes of an entry of an array: its place, and a value for it. -/
def Placed (B : Behaviour) (w : World) (entry : GuestValue × GuestValue)
    (item : Nat × Value) : Prop :=
  entry.1.keyKind = Shape.keyOf item.1 ∧ B.Shows w entry.2 item.2

/-- Where the keys are `1, …, n`, every key has a place. -/
theorem exists_place {entries : List (GuestValue × GuestValue)} {n : Nat}
    (hkeys : (entries.map (·.1.keyKind)).Perm (Shape.indices n)) :
    ∀ entry ∈ entries, ∃ place, entry.1.keyKind = Shape.keyOf place := by
  intro entry he
  obtain ⟨place, -, hplace⟩ := List.mem_map.1 (hkeys.mem_iff.1 (List.mem_map_of_mem he))
  exact ⟨place, hplace.symm⟩

theorem placedItems_meets (entries : List (GuestValue × GuestValue)) :
    ∀ {w : World}, B.MeetsAll convert entries w →
      (∀ entry ∈ entries, ∃ place, entry.1.keyKind = Shape.keyOf place) →
      B.Grows w ((placedItems convert entries).on w).2
        ∧ match ((placedItems convert entries).on w).1 with
          | .ok items =>
            List.Forall₂ (Placed B ((placedItems convert entries).on w).2) entries items
          | .error e => ∃ entry ∈ entries, B.Fails entry.2 e := by
  induction entries with
  | nil => exact fun {w} _ _ => ⟨B.refl w, List.Forall₂.nil⟩
  | cons entry rest ih =>
    intro w hmeets hkeys
    obtain ⟨key, v⟩ := entry
    obtain ⟨place, hkey⟩ := hkeys (key, v) List.mem_cons_self
    have hplace : ((place : Int) + 1 - 1).toNat = place := by omega
    have hkey' : key.keyKind = .index ((place : Int) + 1) := hkey
    obtain ⟨hgrows, hhead⟩ := hmeets.head
    rw [placedItems, hkey']
    dsimp only
    cases hv : (convert v).on w with
    | mk r w₁ =>
      rw [hv] at hgrows hhead
      cases r with
      | error e =>
        rw [Conversion.on_bind_error hv]
        exact ⟨hgrows, (key, v), List.mem_cons_self, hhead⟩
      | ok x =>
        rw [Conversion.on_bind_ok hv]
        obtain ⟨hgrows', hrest⟩ := ih (hmeets.tail hgrows)
          fun e he => hkeys e (List.mem_cons_of_mem _ he)
        cases hr : (placedItems convert rest).on w₁ with
        | mk r w₂ =>
          rw [hr] at hgrows' hrest
          cases r with
          | error e =>
            rw [Conversion.on_bind_error hr]
            obtain ⟨entry, he, hfails⟩ := hrest
            exact ⟨B.trans hgrows hgrows', entry, List.mem_cons_of_mem _ he, hfails⟩
          | ok items =>
            rw [Conversion.on_bind_ok hr, hplace]
            exact ⟨B.trans hgrows hgrows',
              List.Forall₂.cons ⟨hkey, B.mono hgrows' hhead⟩ hrest⟩

/-- Items in different places are found where they were put. -/
theorem getElem?_foldl_set (items : List (Nat × Value)) :
    ∀ {slots : Array Value}, (items.map (·.1)).Nodup → (∀ item ∈ items, item.1 < slots.size) →
      let filled := items.foldl (fun slots item => slots.setIfInBounds item.1 item.2) slots
      filled.size = slots.size ∧ (∀ item ∈ items, filled[item.1]? = some item.2)
        ∧ ∀ i, i ∉ items.map (·.1) → filled[i]? = slots[i]? := by
  induction items with
  | nil => exact fun _ _ => ⟨rfl, fun _ h => absurd h List.not_mem_nil, fun _ _ => rfl⟩
  | cons item rest ih =>
    intro slots hnodup hlt
    obtain ⟨hnot, hnodup⟩ := List.nodup_cons.1 hnodup
    have hsize : (slots.setIfInBounds item.1 item.2).size = slots.size :=
      Array.size_setIfInBounds
    have hlt' : ∀ other ∈ rest, other.1 < (slots.setIfInBounds item.1 item.2).size := by
      intro other ho
      rw [hsize]
      exact hlt other (List.mem_cons_of_mem item ho)
    obtain ⟨hs, hitems, hothers⟩ := ih hnodup hlt'
    refine ⟨hs.trans hsize, fun other ho => ?_, fun i hi => ?_⟩
    · rcases List.mem_cons.1 ho with rfl | ho
      · rw [List.foldl_cons, hothers _ hnot,
          Array.getElem?_setIfInBounds_self_of_lt (hlt other List.mem_cons_self)]
      · exact hitems other ho
    · rw [List.map_cons, List.mem_cons, not_or] at hi
      rw [List.foldl_cons, hothers i hi.2, Array.getElem?_setIfInBounds_ne (Ne.symm hi.1)]

/-- A vector of `n` slots is filled: every slot is written once, and nothing else is in it. -/
structure Filled (n : Nat) (writes : List (Nat × Value)) (items : List Value) : Prop where
  /-- The slots written to are those of the vector, each of them once. -/
  once : (writes.map (·.1)).Perm (List.range n)
  length : items.length = n
  /-- What is written to a slot stays there. -/
  kept : ∀ write ∈ writes, items[write.1]? = some write.2
  /-- What is in a slot was written to it. -/
  written : ∀ (i : Nat) (x : Value), items[i]? = some x → (i, x) ∈ writes

theorem Filled.getElem?_eq_some {n : Nat} {writes : List (Nat × Value)} {items : List Value}
    (h : Filled n writes items) {i : Nat} {x : Value} :
    items[i]? = some x ↔ (i, x) ∈ writes :=
  ⟨h.written i x, h.kept (i, x)⟩

/-- What a vector is filled with does not depend on the order of the writes. -/
theorem Filled.eq_of_perm {n : Nat} {writes writes' : List (Nat × Value)}
    {items items' : List Value} (h : Filled n writes items) (h' : Filled n writes' items')
    (hperm : writes.Perm writes') : items = items' := by
  refine List.ext_getElem? fun i => Option.ext fun x => ?_
  rw [h.getElem?_eq_some, h'.getElem?_eq_some, hperm.mem_iff]

/-- **A vector is filled by writing to each of its slots once,** in any order. -/
theorem filled_foldl {n : Nat} {writes : List (Nat × Value)}
    (once : (writes.map (·.1)).Perm (List.range n)) :
    Filled n writes (writes.foldl (fun slots write => slots.setIfInBounds write.1 write.2)
      (Array.replicate n Value.nil)).toList := by
  have hinside : ∀ write ∈ writes, write.1 < (Array.replicate n Value.nil).size := by
    intro write hw
    rw [Array.size_replicate]
    exact List.mem_range.1 (once.mem_iff.1 (List.mem_map_of_mem hw))
  obtain ⟨hsize, hkept, -⟩ :=
    getElem?_foldl_set writes (once.nodup_iff.2 List.nodup_range) hinside
  rw [Array.size_replicate] at hsize
  refine ⟨once, by rw [Array.length_toList, hsize], fun write hw => ?_, fun i x hx => ?_⟩
  · rw [Array.getElem?_toList, hkept write hw]
  · rw [Array.getElem?_toList] at hx
    obtain ⟨hlt, -⟩ := Array.getElem?_eq_some_iff.1 hx
    rw [hsize] at hlt
    obtain ⟨write, hw, rfl⟩ := List.mem_map.1 (once.mem_iff.2 (List.mem_range.2 hlt))
    rw [hkept write hw] at hx
    rwa [← Option.some.inj hx]

/-! ## Fields -/

/-- What comes of an entry of an object: its name, and a value for it. -/
def Named (B : Behaviour) (w : World) (entry : GuestValue × GuestValue)
    (field : String × Value) : Prop :=
  entry.1.fieldName = .ok field.1 ∧ B.Shows w entry.2 field.2

/-- The keys of the entries can be written as field names, and no two of them as the same. -/
structure HasNames (entries : List (GuestValue × GuestValue)) : Prop where
  named : ∀ entry ∈ entries, ∃ name, entry.1.fieldName = .ok name
  distinct : (entries.map (·.1.fieldName)).Nodup

theorem HasNames.perm {entries entries' : List (GuestValue × GuestValue)} (h : HasNames entries)
    (hperm : entries.Perm entries') : HasNames entries' where
  named entry he := h.named entry (hperm.mem_iff.2 he)
  distinct := (hperm.map (·.1.fieldName)).nodup_iff.1 h.distinct

theorem namedFields_meets (entries : List (GuestValue × GuestValue)) :
    ∀ {w : World} {sofar : Fields}, B.MeetsAll convert entries w → HasNames entries →
      (∀ entry ∈ entries, ∀ name ∈ sofar.names, entry.1.fieldName ≠ .ok name) →
      B.Grows w ((namedFields convert sofar entries).on w).2
        ∧ match ((namedFields convert sofar entries).on w).1 with
          | .ok fields => ∃ pairs : List (String × Value),
            List.Forall₂ (Named B ((namedFields convert sofar entries).on w).2) entries pairs
              ∧ fields = pairs.foldl (fun fields pair => Fields.insert pair.1 pair.2 fields) sofar
          | .error e => ∃ entry ∈ entries, B.Fails entry.2 e := by
  induction entries with
  | nil => exact fun {w sofar} _ _ _ => ⟨B.refl w, [], List.Forall₂.nil, rfl⟩
  | cons entry rest ih =>
    intro w sofar hmeets hnames hnew
    obtain ⟨key, v⟩ := entry
    obtain ⟨name, hname⟩ := hnames.named (key, v) List.mem_cons_self
    have hname' : key.fieldName = .ok name := hname
    obtain ⟨hnot, hdistinct⟩ := List.nodup_cons.1 hnames.distinct
    have hnew' : sofar.contains name = false := by
      rw [Bool.eq_false_iff]
      exact fun hc => hnew (key, v) List.mem_cons_self name (Fields.contains_eq_true.1 hc) hname
    obtain ⟨hgrows, hhead⟩ := hmeets.head
    rw [namedFields, hname', Conversion.on_liftM_bind]
    dsimp only
    rw [hnew', if_neg Bool.false_ne_true]
    cases hv : (convert v).on w with
    | mk r w₁ =>
      rw [hv] at hgrows hhead
      cases r with
      | error e =>
        rw [Conversion.on_bind_error hv]
        exact ⟨hgrows, (key, v), List.mem_cons_self, hhead⟩
      | ok x =>
        rw [Conversion.on_bind_ok hv]
        have hnew'' : ∀ e ∈ rest, ∀ n ∈ (Fields.insert name x sofar).names,
            e.1.fieldName ≠ .ok n := by
          intro e he n hn hen
          rcases Fields.mem_names_insert.1 hn with rfl | hn
          · refine hnot (List.mem_map.2 ⟨e, he, ?_⟩)
            exact hen.trans hname.symm
          · exact hnew e (List.mem_cons_of_mem _ he) n hn hen
        obtain ⟨hgrows', hrest⟩ := ih (hmeets.tail hgrows)
          ⟨fun e he => hnames.named e (List.mem_cons_of_mem _ he), hdistinct⟩ hnew''
        refine ⟨B.trans hgrows hgrows', ?_⟩
        cases hr : (namedFields convert (Fields.insert name x sofar) rest).on w₁ with
        | mk r w₂ =>
          rw [hr] at hgrows' hrest
          cases r with
          | error e =>
            obtain ⟨entry, he, hfails⟩ := hrest
            exact ⟨entry, List.mem_cons_of_mem _ he, hfails⟩
          | ok fields =>
            obtain ⟨pairs, hpairs, hfields⟩ := hrest
            exact ⟨(name, x) :: pairs,
              List.Forall₂.cons ⟨hname, B.mono hgrows' hhead⟩ hpairs, hfields⟩

/-! ## Tables

What is put together is determined by the keys and by what comes of the values, so it is described
without the conversion that has put it together. -/

/-- The value was put together from the entries of a table, of whose values `shows` is true. -/
def Assembled (shows : GuestValue → Value → Prop) (entries : List (GuestValue × GuestValue)) :
    Value → Prop
  | .array items =>
      (1 ≤ items.length ∧ (entries.map (·.1.keyKind)).Perm (Shape.indices items.length))
        ∧ ∀ entry ∈ entries, ∀ place, entry.1.keyKind = Shape.keyOf place →
          ∃ x, items[place]? = some x ∧ shows entry.2 x
  | .object fields =>
      (∀ n, 1 ≤ n → ¬ (entries.map (·.1.keyKind)).Perm (Shape.indices n))
        ∧ Fields.Sorted fields
        ∧ (∀ field ∈ fields, ∃ entry ∈ entries, entry.1.fieldName = .ok field.1)
        ∧ ∀ entry ∈ entries, ∀ name, entry.1.fieldName = .ok name →
          ∃ x, (name, x) ∈ fields ∧ shows entry.2 x
  | _ => False

/-- There is something for every entry in what was put together. -/
theorem Assembled.exists {shows : GuestValue → Value → Prop}
    {entries : List (GuestValue × GuestValue)} {x : Value} (h : Assembled shows entries x)
    (hnames : HasNames entries) {entry : GuestValue × GuestValue} (he : entry ∈ entries) :
    ∃ y, shows entry.2 y := by
  cases x with
  | array items =>
    obtain ⟨⟨-, hperm⟩, hitems⟩ := h
    obtain ⟨place, -, hkey⟩ := List.mem_map.1 (hperm.mem_iff.1 (List.mem_map_of_mem he))
    obtain ⟨y, -, hy⟩ := hitems entry he place hkey.symm
    exact ⟨y, hy⟩
  | object fields =>
    obtain ⟨name, hname⟩ := hnames.named entry he
    obtain ⟨y, -, hy⟩ := h.2.2.2 entry he name hname
    exact ⟨y, hy⟩
  | _ => exact h.elim

/-- What is put together is determined by what the values show. -/
theorem Assembled.unique {shows : GuestValue → Value → Prop}
    {entries : List (GuestValue × GuestValue)} {x y : Value}
    (hshows : ∀ v x y, shows v x → shows v y → x = y) (hx : Assembled shows entries x)
    (hy : Assembled shows entries y) : x = y := by
  cases x with
  | array xs =>
    obtain ⟨⟨hn, hperm⟩, hxs⟩ := hx
    cases y with
    | array ys =>
      obtain ⟨⟨-, hperm'⟩, hys⟩ := hy
      have hlen : xs.length = ys.length := by
        have h := (hperm.symm.trans hperm').length_eq
        rwa [Shape.indices, Shape.indices, List.length_map, List.length_map, List.length_range,
          List.length_range] at h
      congr 1
      refine List.ext_getElem? fun place => ?_
      by_cases hp : place < xs.length
      · have hkey : Shape.keyOf place ∈ entries.map (·.1.keyKind) :=
          hperm.mem_iff.2 (List.mem_map_of_mem (List.mem_range.2 hp))
        obtain ⟨entry, he, hentry⟩ := List.mem_map.1 hkey
        obtain ⟨a, ha, hshow⟩ := hxs entry he place hentry
        obtain ⟨b, hb, hshow'⟩ := hys entry he place hentry
        rw [ha, hb, hshows _ _ _ hshow hshow']
      · rw [List.getElem?_eq_none (Nat.not_lt.1 hp),
          List.getElem?_eq_none (hlen ▸ Nat.not_lt.1 hp)]
    | object fields => exact absurd hperm (hy.1 xs.length hn)
    | _ => exact hy.elim
  | object fields =>
    cases y with
    | array ys => exact absurd hy.1.2 (hx.1 ys.length hy.1.1)
    | object fields' =>
      have hsub : ∀ {a b : Fields}, Assembled shows entries (.object a) →
          Assembled shows entries (.object b) → ∀ field ∈ a, field ∈ b := by
        intro a b ha hb field hf
        obtain ⟨-, hsorted, hnames, hfields⟩ := ha
        obtain ⟨entry, he, hname⟩ := hnames field hf
        obtain ⟨u, hu, hshow⟩ := hfields entry he field.1 hname
        obtain ⟨v, hv, hshow'⟩ := hb.2.2.2 entry he field.1 hname
        have heq := (Fields.get?_eq_some hsorted).2 hf
        rw [(Fields.get?_eq_some hsorted).2 hu] at heq
        rw [← hshows _ _ _ hshow hshow', Option.some.inj heq] at hv
        exact hv
      congr 1
      exact hx.2.1.eq_of_mem_iff hy.2.1 fun field => ⟨hsub hx hy field, hsub hy hx field⟩
    | _ => exact hy.elim
  | _ => exact hx.elim

/-- Without entries there is an object without fields. -/
theorem assembled_nil (shows : GuestValue → Value → Prop) : Assembled shows [] (.object []) := by
  refine ⟨fun n hn hp => ?_, List.Pairwise.nil, fun _ h => absurd h List.not_mem_nil,
    fun _ h => absurd h List.not_mem_nil⟩
  have hlen := hp.length_eq
  rw [List.length_map, Shape.indices, List.length_map, List.length_range, List.length_nil] at hlen
  rw [← hlen] at hn
  exact absurd hn (Nat.not_succ_le_zero 0)

theorem exists_of_forall₂ {α β : Type} {R : α → β → Prop} {as : List α} {bs : List β}
    (h : List.Forall₂ R as bs) {a : α} (ha : a ∈ as) : ∃ b ∈ bs, R a b := by
  induction h with
  | nil => exact absurd ha List.not_mem_nil
  | cons hr _ ih =>
    rcases List.mem_cons.1 ha with rfl | ha
    · exact ⟨_, List.mem_cons_self, hr⟩
    · obtain ⟨b, hb, hr⟩ := ih ha
      exact ⟨b, List.mem_cons_of_mem _ hb, hr⟩

theorem map_eq_map_of_forall₂ {α β γ : Type} {R : α → β → Prop} {f : α → γ} {g : β → γ}
    (hfg : ∀ a b, R a b → f a = g b) {as : List α} {bs : List β} (h : List.Forall₂ R as bs) :
    as.map f = bs.map g := by
  induction h with
  | nil => rfl
  | cons hr _ ih => rw [List.map_cons, List.map_cons, hfg _ _ hr, ih]

/-- The items of an array are all in their places. -/
theorem assembled_array {w : World} {entries : List (GuestValue × GuestValue)}
    {items : List (Nat × Value)} {n : Nat} (hn : 1 ≤ n)
    (hperm : (entries.map (·.1.keyKind)).Perm (Shape.indices n))
    (h : List.Forall₂ (Placed B w) entries items) :
    Assembled (B.Shows w) entries (.array (items.foldl
      (fun slots item => slots.setIfInBounds item.1 item.2) (Array.replicate n Value.nil)).toList) := by
  have hkeys : entries.map (·.1.keyKind) = (items.map (·.1)).map Shape.keyOf := by
    rw [List.map_map]
    exact map_eq_map_of_forall₂ (fun _ _ hr => hr.1) h
  have hplaces : (items.map (·.1)).Perm (List.range n) := by
    rw [hkeys] at hperm
    exact (List.map_perm_map_iff Shape.keyOf_injective).1 hperm
  have hfilled := filled_foldl hplaces
  refine ⟨?_, fun entry he place hkey => ?_⟩
  · rw [hfilled.length]
    exact ⟨hn, hperm⟩
  · obtain ⟨item, hi, hkey', hshows⟩ := exists_of_forall₂ h he
    obtain rfl : place = item.1 := Shape.keyOf_injective (hkey.symm.trans hkey')
    exact ⟨item.2, hfilled.kept item hi, hshows⟩

/-- An object has a field for every entry, and no others. -/
theorem assembled_object {w : World} {entries : List (GuestValue × GuestValue)}
    {pairs : List (String × Value)}
    (hobject : ∀ n, 1 ≤ n → ¬ (entries.map (·.1.keyKind)).Perm (Shape.indices n))
    (hnames : HasNames entries) (h : List.Forall₂ (Named B w) entries pairs) :
    Assembled (B.Shows w) entries (.object (Fields.ofList pairs)) := by
  have hmap : entries.map (·.1.fieldName) = (pairs.map (·.1)).map Except.ok := by
    rw [List.map_map]
    exact map_eq_map_of_forall₂ (fun _ _ hr => hr.1) h
  have hnodup : (pairs.map (·.1)).Nodup := by
    have hd := hnames.distinct
    rw [hmap] at hd
    exact List.Nodup.of_map Except.ok hd
  have hmem : ∀ field, field ∈ Fields.ofList pairs ↔ field ∈ pairs := by
    intro field
    rw [Fields.ofList, Fields.mem_foldl_insert pairs hnodup fun _ _ => List.not_mem_nil,
      iff_false_intro List.not_mem_nil, or_false]
  refine ⟨hobject, Fields.sorted_ofList pairs, fun field hf => ?_, fun entry he name hname => ?_⟩
  · have hok : (.ok field.1 : Except ConvertError String) ∈ entries.map (·.1.fieldName) := by
      rw [hmap]
      exact List.mem_map_of_mem (List.mem_map_of_mem ((hmem field).1 hf))
    obtain ⟨entry, he, hname⟩ := List.mem_map.1 hok
    exact ⟨entry, he, hname⟩
  · obtain ⟨pair, hp, hname', hshows⟩ := exists_of_forall₂ h he
    obtain rfl : name = pair.1 := Except.ok.inj (hname.symm.trans hname')
    exact ⟨pair.2, (hmem pair).2 hp, hshows⟩

/-- **What is true of the values in a table carries over to the table.** -/
theorem entriesToValue_meets {entries : List (GuestValue × GuestValue)} {w : World}
    (hmeets : B.MeetsAll convert entries w) (hnames : HasNames entries) :
    B.Grows w ((entriesToValue convert entries).on w).2
      ∧ match ((entriesToValue convert entries).on w).1 with
        | .ok x => Assembled (B.Shows ((entriesToValue convert entries).on w).2) entries x
        | .error e => ∃ entry ∈ entries, B.Fails entry.2 e := by
  rw [entriesToValue]
  cases hs : Shape.ofKeys (entries.map (·.1.keyKind)) with
  | array n =>
    obtain ⟨hn, hperm⟩ := Shape.ofKeys_eq_array.1 hs
    obtain ⟨hgrows, hitems⟩ := placedItems_meets entries hmeets (exists_place hperm)
    dsimp only
    cases hr : (placedItems convert entries).on w with
    | mk r w' =>
      rw [hr] at hgrows hitems
      cases r with
      | error e =>
        rw [Conversion.on_bind_error hr]
        exact ⟨hgrows, hitems⟩
      | ok items =>
        rw [Conversion.on_bind_ok hr]
        exact ⟨hgrows, assembled_array hn hperm hitems⟩
  | object =>
    have hnew : ∀ entry ∈ entries, ∀ name ∈ Fields.names [], entry.1.fieldName ≠ .ok name :=
      fun _ _ _ hn => absurd hn List.not_mem_nil
    obtain ⟨hgrows, hfields⟩ := namedFields_meets entries hmeets hnames hnew
    dsimp only
    cases hr : (namedFields convert [] entries).on w with
    | mk r w' =>
      rw [hr] at hgrows hfields
      cases r with
      | error e =>
        rw [Conversion.on_bind_error hr]
        exact ⟨hgrows, hfields⟩
      | ok fields =>
        rw [Conversion.on_bind_ok hr]
        obtain ⟨pairs, hpairs, rfl⟩ := hfields
        exact ⟨hgrows, assembled_object (Shape.ofKeys_eq_object.1 hs) hnames hpairs⟩

/-! ## One table -/

section OneTable

variable {c : Converter} {s remaining id : Nat} {w : World} {v : GuestValue} {path : List Nat}

theorem on_toValueAt_leaf (h : ∀ id, v ≠ .table id) :
    (c.toValueAt s remaining path v).on w = (c.leafToValue s v).on w := by
  cases v with
  | table id => exact absurd rfl (h id)
  | _ => cases remaining <;> rfl

/-- What userdata carries comes back as it was. -/
theorem leafToValue_carried {held : Value} (h : (w.state s).carried? (.userdata id) = some held) :
    (c.leafToValue s (.object (.userdata id))).on w = (.ok held, w) := by
  rw [leafToValue, Conversion.on_get_bind, h]
  rfl

variable {descend : List Nat → GuestValue → Conversion Value}

theorem on_tableToValue_circular (h : id ∈ path) :
    (c.tableToValue s remaining path descend id).on w = (.error .circular, w) := by
  rw [tableToValue, if_pos (List.contains_iff_mem.2 h)]
  rfl

theorem on_tableToValue_tooDeep (h : id ∉ path) :
    (c.tableToValue s 0 path descend id).on w = (.error (.tooDeep c.maxDepth), w) := by
  rw [tableToValue, if_neg (fun hc => h (List.contains_iff_mem.1 hc))]
  rfl

theorem on_tableToValue_empty (h : id ∉ path) (hr : remaining ≠ 0)
    (he : ((w.state s).table id).entries = []) {marked : Bool}
    (hm : (w.state s).isMarkedArray ((w.state s).table id) = .ok marked) :
    (c.tableToValue s remaining path descend id).on w
      = (.ok (if marked then .array [] else .object []), w) := by
  rw [tableToValue, if_neg (fun hc => h (List.contains_iff_mem.1 hc)), if_neg hr]
  show Conversion.on (if ((w.state s).table id).entries.isEmpty then _ else _) w = _
  rw [he, List.isEmpty_nil, if_pos rfl]
  show Conversion.on (Conversion.ofGuest ((w.state s).isMarkedArray _) >>= _) w = _
  rw [hm]
  rfl

/-- If what the marker says cannot be read, the conversion fails. -/
theorem on_tableToValue_unreadable (h : id ∉ path) (hr : remaining ≠ 0)
    (he : ((w.state s).table id).entries = []) {f : GuestFault}
    (hm : (w.state s).isMarkedArray ((w.state s).table id) = .error f) :
    (c.tableToValue s remaining path descend id).on w = (.error (.guest f.message), w) := by
  rw [tableToValue, if_neg (fun hc => h (List.contains_iff_mem.1 hc)), if_neg hr]
  show Conversion.on (if ((w.state s).table id).entries.isEmpty then _ else _) w = _
  rw [he, List.isEmpty_nil, if_pos rfl]
  show Conversion.on (Conversion.ofGuest ((w.state s).isMarkedArray _) >>= _) w = _
  rw [hm]
  rfl

theorem on_tableToValue_entries (h : id ∉ path) (hr : remaining ≠ 0)
    (he : ((w.state s).table id).entries ≠ []) :
    (c.tableToValue s remaining path descend id).on w
      = (entriesToValue (descend (id :: path)) ((w.state s).table id).entries).on w := by
  rw [tableToValue, if_neg (fun hc => h (List.contains_iff_mem.1 hc)), if_neg hr]
  show Conversion.on (if ((w.state s).table id).entries.isEmpty then _ else _) w = _
  rw [if_neg (fun hn => he (List.isEmpty_iff.1 hn))]

theorem toValueAt_table_zero (hc : c.codecs = []) :
    c.toValueAt s 0 path (.table id) = c.tableToValue s 0 path (fun _ _ => pure .nil) id := by
  rw [toValueAt, hc]
  rfl

theorem toValueAt_table_succ (hc : c.codecs = []) :
    c.toValueAt s (remaining + 1) path (.table id)
      = c.tableToValue s (remaining + 1) path (c.toValueAt s remaining) id := by
  rw [toValueAt, hc]
  rfl

/-- A table that is on the path contains itself. -/
theorem on_toValueAt_circular (hc : c.codecs = []) (h : id ∈ path) :
    (c.toValueAt s remaining path (.table id)).on w = (.error .circular, w) := by
  cases remaining with
  | zero =>
    rw [toValueAt_table_zero hc]
    exact on_tableToValue_circular h
  | succ left =>
    rw [toValueAt_table_succ hc]
    exact on_tableToValue_circular h

end OneTable

end Converter
end ScriptPool
