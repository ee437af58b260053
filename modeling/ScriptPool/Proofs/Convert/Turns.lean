import ScriptPool.Proofs.Convert.Graph
import ScriptPool.Proofs.Guest.Calls
import ScriptPool.Proofs.Guest.Heap

/-!
# Converting entry by entry

The values in a table convert one after the other, each in the world that the one before has left.
Where this succeeds, it is a run of turns, and what the table converts to is put together from what
the turns have given.

## What is here

* `World.Dealt` is a preorder, and conversions out of a guest state keep it: they only give out
  handles.
* `Turn`, `InTurn` — the conversion of one value, and a run of them.
* `on_entriesToValue` — **when a table converts, and to what**: if its keys allow for it and its
  values convert in turn, to what `putTogether` makes of them.
* `filled_putTogether`, `mem_ofList_turns` — where in it the value of a turn is.
* `slots_of_entries` — the keys of an array are its slots, and every slot is written to once.
-/

set_option autoImplicit false

namespace ScriptPool

/-! ## Handles that were given out -/

namespace World

variable {w u : World}

theorem Dealt.size (h : w.Dealt u) : w.functions.size ≤ u.functions.size := by
  by_contra hlt
  have hsome := Array.getElem?_eq_getElem (Nat.not_le.1 hlt)
  obtain ⟨hlt', -⟩ := Array.getElem?_eq_some_iff.1 (h.functions _ _ hsome)
  exact absurd hlt' (Nat.lt_irrefl _)

instance : IsPreorder World Dealt where
  refl := .refl
  trans _ _ _ := .trans

theorem handsOut_dealt : HandsOut Everywhere Dealt where
  wrap _ _ _ _ := ⟨⟨rfl, fun _ _ h => GuestState.getElem?_push_of_some h⟩, rfl, Nat.le_refl _⟩
  handle _ := ⟨⟨rfl, fun _ _ h => h⟩, rfl, Nat.le_succ _⟩

theorem Dealt.function (h : w.Dealt u) {i : Handle} (hi : i < w.functions.size) :
    u.functions[i]? = w.functions[i]? := by
  rw [Array.getElem?_eq_getElem hi]
  exact h.functions _ _ (Array.getElem?_eq_getElem hi)

end World

namespace Converter

/-! ## Entries in turn

A loop that stops at the first failure is unrolled into a list of turns: one for each entry, with
the world before and the world after it.  All that is said about tables further on is said about
this list. -/

/-- The conversion of the value of an entry, which came to an end with a value. -/
structure Turn where
  entry : GuestValue × GuestValue
  before : World
  value : Value
  after : World

/-- The values of some entries convert one after the other. -/
inductive InTurn (convert : GuestValue → Conversion Value) : World → List Turn → World → Prop where
  | nil (w : World) : InTurn convert w [] w
  | cons {t : Turn} {ts : List Turn} {u : World}
      (h : (convert t.entry.2).on t.before = (.ok t.value, t.after))
      (rest : InTurn convert t.after ts u) : InTurn convert t.before (t :: ts) u

/-- The place of a key among the items of an array. -/
def placeOf (key : GuestValue) : Nat :=
  match key.keyKind with
  | .index i => (i - 1).toNat
  | .name => 0

/-- The name of a key among the fields of an object. -/
def nameOf (key : GuestValue) : String :=
  match key.fieldName with
  | .ok name => name
  | .error _ => ""

/-- What the values of the entries of a table are put together to. -/
def putTogether (shape : Shape) (ts : List Turn) : Value :=
  match shape with
  | .array length =>
      .array ((ts.map fun t => (placeOf t.entry.1, t.value)).foldl
        (fun slots item => slots.setIfInBounds item.1 item.2)
        (Array.replicate length Value.nil)).toList
  | .object => .object (Fields.ofList (ts.map fun t => (nameOf t.entry.1, t.value)))

variable {w u : World} {v : GuestValue} {x : Value} {ts : List Turn}
  {convert : GuestValue → Conversion Value} {entries : List (GuestValue × GuestValue)}

/-- What comes later in a run has begun later. -/
theorem InTurn.dealt (hconvert : ∀ v, Keeps World.Dealt (convert v)) (h : InTurn convert w ts u) :
    w.Dealt u ∧ (∀ t ∈ ts, w.Dealt t.before ∧ t.before.Dealt t.after ∧ t.after.Dealt u
      ∧ (convert t.entry.2).on t.before = (.ok t.value, t.after))
      ∧ ts.Pairwise fun a b => a.after.Dealt b.before := by
  induction h with
  | nil w => exact ⟨.refl w, fun _ h => absurd h List.not_mem_nil, .nil⟩
  | @cons t ts u h rest ih =>
    obtain ⟨hall, hturns, hpairs⟩ := ih
    have hstep : t.before.Dealt t.after := by
      have hkeeps : t.before.Dealt ((convert t.entry.2).on t.before).2 := hconvert _ t.before
      rwa [h] at hkeeps
    refine ⟨hstep.trans hall, fun a ha => ?_, List.pairwise_cons.2 ⟨fun b hb => (hturns b hb).1, hpairs⟩⟩
    rcases List.mem_cons.1 ha with rfl | ha
    · exact ⟨.refl _, hstep, hall, h⟩
    · obtain ⟨hbefore, hrest⟩ := hturns a ha
      exact ⟨hstep.trans hbefore, hrest⟩

/-- Values that convert wherever they come convert one after the other. -/
theorem exists_inTurn (hconvert : ∀ v, Keeps World.Dealt (convert v))
    (h : ∀ entry ∈ entries, ∀ u, w.Dealt u → ∃ x u', (convert entry.2).on u = (.ok x, u')) :
    ∃ ts u, InTurn convert w ts u ∧ ts.map (·.entry) = entries := by
  induction entries generalizing w with
  | nil => exact ⟨[], w, .nil w, rfl⟩
  | cons entry rest ih =>
    obtain ⟨x, u₁, hx⟩ := h entry List.mem_cons_self w (.refl w)
    have hstep : w.Dealt u₁ := by
      have hkeeps : w.Dealt ((convert entry.2).on w).2 := hconvert _ w
      rwa [hx] at hkeeps
    obtain ⟨ts, u, hts, hentries⟩ := ih fun e he u hu =>
      h e (List.mem_cons_of_mem _ he) u (hstep.trans hu)
    exact ⟨⟨entry, w, x, u₁⟩ :: ts, u, .cons (t := ⟨entry, w, x, u₁⟩) hx hts,
      congrArg (List.cons entry) hentries⟩

/-- Without entries, nothing is run. -/
theorem exists_inTurn_nil {P : List Turn → Prop} :
    (∃ ts, InTurn convert w ts u ∧ ts.map (·.entry) = [] ∧ P ts) ↔ u = w ∧ P [] := by
  constructor
  · rintro ⟨ts, hts, hnil, hP⟩
    obtain rfl := List.map_eq_nil_iff.1 hnil
    cases hts
    exact ⟨rfl, hP⟩
  · rintro ⟨rfl, hP⟩
    exact ⟨[], .nil u, rfl, hP⟩

/-- The first entry has its turn, and the others have theirs after it. -/
theorem exists_inTurn_cons {entry : GuestValue × GuestValue} {P : List Turn → Prop} :
    (∃ ts, InTurn convert w ts u ∧ ts.map (·.entry) = entry :: entries ∧ P ts)
      ↔ ∃ x w₁, (convert entry.2).on w = (.ok x, w₁) ∧ ∃ ts, InTurn convert w₁ ts u
        ∧ ts.map (·.entry) = entries ∧ P (⟨entry, w, x, w₁⟩ :: ts) := by
  constructor
  · rintro ⟨ts, hts, hentries, hP⟩
    cases hts with
    | nil => cases hentries
    | @cons t ts _ hx hts =>
      obtain ⟨rfl, hrest⟩ := List.cons.inj hentries
      exact ⟨t.value, t.after, hx, ts, hts, hrest, hP⟩
  · rintro ⟨x, w₁, hx, ts, hts, rfl, hP⟩
    exact ⟨⟨entry, w, x, w₁⟩ :: ts, .cons (t := ⟨entry, w, x, w₁⟩) hx hts, rfl, hP⟩

theorem placeOf_eq {key : GuestValue} {place : Nat} (h : key.keyKind = Shape.keyOf place) :
    placeOf key = place := by
  rw [placeOf, h]
  show ((place : Int) + 1 - 1).toNat = place
  omega

/-- **Items** convert in turn, each into its place. -/
theorem on_placedItems : ∀ {entries : List (GuestValue × GuestValue)} {w u : World}
    {items : List (Nat × Value)},
    (∀ entry ∈ entries, ∃ place, entry.1.keyKind = Shape.keyOf place) →
      ((placedItems convert entries).on w = (.ok items, u)
        ↔ ∃ ts, InTurn convert w ts u ∧ ts.map (·.entry) = entries
          ∧ items = ts.map fun t => (placeOf t.entry.1, t.value)) := by
  intro entries
  induction entries with
  | nil =>
    intro w u items _
    rw [exists_inTurn_nil]
    constructor
    · intro h
      cases h
      exact ⟨rfl, rfl⟩
    · rintro ⟨rfl, rfl⟩
      rfl
  | cons entry rest ih =>
    intro w u items hkeys
    obtain ⟨key, v⟩ := entry
    obtain ⟨place, hkey⟩ := hkeys (key, v) List.mem_cons_self
    have hplace : placeOf key = place := placeOf_eq hkey
    have hkey : key.keyKind = .index ((place : Int) + 1) := hkey
    have hindex : ((place : Int) + 1 - 1).toNat = place := by omega
    have ih := fun {w u items} => @ih w u items fun e he => hkeys e (List.mem_cons_of_mem _ he)
    rw [placedItems, hkey, exists_inTurn_cons]
    dsimp only
    rw [hindex]
    constructor
    · intro h
      obtain ⟨x, w₁, hx, h⟩ := Conversion.exists_of_on_bind h
      obtain ⟨items', w₂, hrest, h⟩ := Conversion.exists_of_on_bind h
      cases h
      obtain ⟨ts, hts, hentries, rfl⟩ := ih.1 hrest
      refine ⟨x, w₁, hx, ts, hts, hentries, ?_⟩
      rw [List.map_cons, hplace]
    · rintro ⟨x, w₁, hx, ts, hts, hentries, rfl⟩
      rw [Conversion.on_bind_ok hx, Conversion.on_bind_ok (ih.2 ⟨ts, hts, hentries, rfl⟩),
        List.map_cons, hplace]
      rfl

/-- A field is added if its name is new, with what its value converts to. -/
theorem on_namedFields_cons {key : GuestValue} {sofar fields : Fields} :
    (namedFields convert sofar ((key, v) :: entries)).on w = (.ok fields, u)
      ↔ ∃ name, (key.fieldName = .ok name ∧ name ∉ sofar.names)
        ∧ ∃ x w₁, (convert v).on w = (.ok x, w₁)
          ∧ (namedFields convert (Fields.insert name x sofar) entries).on w₁ = (.ok fields, u) := by
  rw [namedFields, Conversion.on_liftM_bind]
  cases hname : key.fieldName with
  | error e =>
    constructor
    · intro h
      cases h
    · rintro ⟨name, ⟨hok, -⟩, -⟩
      cases hok
  | ok name =>
    dsimp only
    cases hc : sofar.contains name with
    | true =>
      constructor
      · intro h
        cases h
      · rintro ⟨other, ⟨hok, hnot⟩, -⟩
        cases hok
        exact absurd (Fields.contains_eq_true.1 hc) hnot
    | false =>
      have hnot : name ∉ sofar.names := fun hmem =>
        Bool.false_ne_true (hc.symm.trans (Fields.contains_eq_true.2 hmem))
      rw [if_neg Bool.false_ne_true]
      constructor
      · intro h
        obtain ⟨x, w₁, hx, h⟩ := Conversion.exists_of_on_bind h
        exact ⟨name, ⟨rfl, hnot⟩, x, w₁, hx, h⟩
      · rintro ⟨other, ⟨hok, -⟩, x, w₁, hx, h⟩
        cases hok
        exact (Conversion.on_bind_ok hx).trans h

/-- The names of some entries differ, and from those before, exactly if the first of them is new and
so are the others after it. -/
theorem hasNames_cons {key : GuestValue} {name : String} {sofar : Fields}
    (hname : key.fieldName = .ok name) :
    (HasNames ((key, v) :: entries)
      ∧ ∀ entry ∈ (key, v) :: entries, ∀ other ∈ sofar.names, entry.1.fieldName ≠ .ok other)
      ↔ name ∉ sofar.names ∧ HasNames entries
        ∧ ∀ entry ∈ entries, ∀ other ∈ (Fields.insert name x sofar).names,
          entry.1.fieldName ≠ .ok other := by
  constructor
  · rintro ⟨⟨hnamed, hdistinct⟩, hold⟩
    obtain ⟨hfirst, hdistinct⟩ := List.nodup_cons.1 hdistinct
    refine ⟨fun hmem => hold (key, v) List.mem_cons_self name hmem hname,
      ⟨fun e he => hnamed e (List.mem_cons_of_mem _ he), hdistinct⟩, fun e he other ho heq => ?_⟩
    rcases Fields.mem_names_insert.1 ho with rfl | ho
    · exact hfirst (List.mem_map.2 ⟨e, he, heq.trans hname.symm⟩)
    · exact hold e (List.mem_cons_of_mem _ he) other ho heq
  · rintro ⟨hnot, ⟨hnamed, hdistinct⟩, hnew⟩
    refine ⟨⟨fun e he => ?_, List.nodup_cons.2 ⟨fun hmem => ?_, hdistinct⟩⟩,
      fun e he other ho heq => ?_⟩
    · rcases List.mem_cons.1 he with rfl | he
      · exact ⟨name, hname⟩
      · exact hnamed e he
    · obtain ⟨e, he, heq⟩ := List.mem_map.1 hmem
      exact hnew e he name (Fields.mem_names_insert.2 (.inl rfl)) (heq.trans hname)
    · rcases List.mem_cons.1 he with rfl | he
      · obtain rfl : name = other := Except.ok.inj (hname.symm.trans heq)
        exact hnot ho
      · exact hnew e he other (Fields.mem_names_insert.2 (.inr ho)) heq

/-- **Fields** convert in turn, each under its name, and all names differ. -/
theorem on_namedFields : ∀ {entries : List (GuestValue × GuestValue)} {w u : World}
    {sofar fields : Fields}, (namedFields convert sofar entries).on w = (.ok fields, u)
      ↔ (HasNames entries
        ∧ ∀ entry ∈ entries, ∀ name ∈ sofar.names, entry.1.fieldName ≠ .ok name)
        ∧ ∃ ts, InTurn convert w ts u ∧ ts.map (·.entry) = entries
          ∧ fields = (ts.map fun t => (nameOf t.entry.1, t.value)).foldl
            (fun fields pair => Fields.insert pair.1 pair.2 fields) sofar := by
  intro entries
  induction entries with
  | nil =>
    intro w u sofar fields
    rw [exists_inTurn_nil]
    constructor
    · intro h
      cases h
      exact ⟨⟨⟨fun _ h => absurd h List.not_mem_nil, .nil⟩, fun _ h => absurd h List.not_mem_nil⟩,
        rfl, rfl⟩
    · rintro ⟨-, rfl, rfl⟩
      rfl
  | cons entry rest ih =>
    intro w u sofar fields
    obtain ⟨key, v⟩ := entry
    rw [on_namedFields_cons, exists_inTurn_cons]
    constructor
    · rintro ⟨name, ⟨hname, hnot⟩, x, w₁, hx, h⟩
      obtain ⟨hnew, ts, hts, hentries, hfields⟩ := ih.1 h
      refine ⟨(hasNames_cons hname).2 ⟨hnot, hnew⟩, x, w₁, hx, ts, hts, hentries, ?_⟩
      rw [hfields, List.map_cons, List.foldl_cons, nameOf, hname]
    · rintro ⟨hnames, x, w₁, hx, ts, hts, hentries, hfields⟩
      obtain ⟨name, hname⟩ := hnames.1.named (key, v) List.mem_cons_self
      obtain ⟨hnot, hnew⟩ := (hasNames_cons hname).1 hnames
      refine ⟨name, ⟨hname, hnot⟩, x, w₁, hx, ih.2 ⟨hnew, ts, hts, hentries, ?_⟩⟩
      have hlabel : nameOf key = name := by rw [nameOf, hname]
      rwa [List.map_cons, List.foldl_cons, hlabel] at hfields

/-- **A table converts exactly if its keys allow for it and its values convert in turn.** -/
theorem on_entriesToValue : (entriesToValue convert entries).on w = (.ok x, u)
    ↔ (Shape.ofKeys (entries.map (·.1.keyKind)) = .object → HasNames entries)
      ∧ ∃ ts, InTurn convert w ts u ∧ ts.map (·.entry) = entries
        ∧ x = putTogether (Shape.ofKeys (entries.map (·.1.keyKind))) ts := by
  rw [entriesToValue]
  cases hshape : Shape.ofKeys (entries.map (·.1.keyKind)) with
  | array n =>
    have hplaces := exists_place (Shape.ofKeys_eq_array.1 hshape).2
    constructor
    · intro h
      obtain ⟨items, u', hitems, h⟩ := Conversion.exists_of_on_bind h
      cases h
      obtain ⟨ts, hts, hentries, rfl⟩ := (on_placedItems hplaces).1 hitems
      exact ⟨fun hobject => Shape.noConfusion hobject, ts, hts, hentries, rfl⟩
    · rintro ⟨-, ts, hts, hentries, rfl⟩
      exact Conversion.on_bind_ok ((on_placedItems hplaces).2 ⟨ts, hts, hentries, rfl⟩)
  | object =>
    constructor
    · intro h
      obtain ⟨fields, u', hfields, h⟩ := Conversion.exists_of_on_bind h
      cases h
      obtain ⟨⟨hnames, -⟩, ts, hts, hentries, rfl⟩ := on_namedFields.1 hfields
      exact ⟨fun _ => hnames, ts, hts, hentries, rfl⟩
    · rintro ⟨hnames, ts, hts, hentries, rfl⟩
      exact Conversion.on_bind_ok (on_namedFields.2
        ⟨⟨hnames rfl, fun _ _ _ h => absurd h List.not_mem_nil⟩, ts, hts, hentries, rfl⟩)

/-- No entry of a table that converts comes twice. -/
theorem nodup_entries
    (hnames : Shape.ofKeys (entries.map (·.1.keyKind)) = .object → HasNames entries) :
    entries.Nodup := by
  cases hshape : Shape.ofKeys (entries.map (·.1.keyKind)) with
  | array n =>
    exact (Shape.nodup_of_perm (Shape.ofKeys_eq_array.1 hshape).2).of_map _
  | object => exact (hnames hshape).distinct.of_map _

/-! ## Putting the values together

Which slot a value is written to, and under which name, depends on its key only.  So what is put
together depends on the turns as a set. -/

/-- **If the keys are `1, …, n`,** each says a place, and the places are all of those before `n`. -/
theorem places_of_keys {n : Nat} (hkeys : (entries.map (·.1.keyKind)).Perm (Shape.indices n)) :
    (∀ entry ∈ entries, entry.1.keyKind = Shape.keyOf (placeOf entry.1))
      ∧ (entries.map fun entry => placeOf entry.1).Perm (List.range n) := by
  have hplace : ∀ entry ∈ entries, entry.1.keyKind = Shape.keyOf (placeOf entry.1) := by
    intro entry he
    obtain ⟨place, hplace⟩ := exists_place hkeys entry he
    rw [placeOf_eq hplace, hplace]
  refine ⟨hplace, ?_⟩
  rw [List.map_congr_left hplace] at hkeys
  rw [← List.map_perm_map_iff Shape.keyOf_injective, List.map_map]
  exact hkeys

/-- **The values of an array fill it,** each in the place that its key says. -/
theorem filled_putTogether {n : Nat}
    (hkeys : ((ts.map (·.entry)).map (·.1.keyKind)).Perm (Shape.indices n)) :
    ∃ items, putTogether (.array n) ts = .array items
      ∧ Filled n (ts.map fun t => (placeOf t.entry.1, t.value)) items := by
  obtain ⟨-, hplaces⟩ := places_of_keys hkeys
  refine ⟨_, rfl, filled_foldl ?_⟩
  simpa [Function.comp_def] using hplaces

/-- An array has at every place the value whose key says so. -/
theorem putTogether_array {n : Nat}
    (hkeys : (ts.map fun t => t.entry.1.keyKind).Perm (Shape.indices n)) :
    ∃ items, putTogether (.array n) ts = .array items ∧ items.length = n
      ∧ ∀ (i : Nat) (x : Value), items[i]? = some x →
        ∃ t ∈ ts, t.entry.1.keyKind = Shape.keyOf i ∧ t.value = x := by
  have hentries : ((ts.map (·.entry)).map (·.1.keyKind)).Perm (Shape.indices n) := by
    rwa [List.map_map]
  obtain ⟨hplace, -⟩ := places_of_keys hentries
  obtain ⟨items, hitems, hfilled⟩ := filled_putTogether hentries
  refine ⟨items, hitems, hfilled.length, fun i x hx => ?_⟩
  obtain ⟨t, ht, heq⟩ := List.mem_map.1 (hfilled.written i x hx)
  obtain ⟨rfl, rfl⟩ := Prod.mk.inj heq
  exact ⟨t, ht, hplace _ (List.mem_map_of_mem ht), rfl⟩

theorem fieldName_turn (hnames : HasNames (ts.map (·.entry))) {t : Turn} (ht : t ∈ ts) :
    t.entry.1.fieldName = .ok (nameOf t.entry.1) := by
  obtain ⟨name, hname⟩ := hnames.named t.entry (List.mem_map_of_mem ht)
  rw [nameOf, hname]

/-- The names of different turns differ. -/
theorem nodup_names_turns (hnames : HasNames (ts.map (·.entry))) :
    ((ts.map fun t => (nameOf t.entry.1, t.value)).map (·.1)).Nodup := by
  have hdistinct := hnames.distinct
  rw [List.map_map] at hdistinct ⊢
  have hlabels : (ts.map fun t => t.entry.1.fieldName)
      = (ts.map fun t => nameOf t.entry.1).map .ok := by
    rw [List.map_map]
    exact List.map_congr_left fun t ht => fieldName_turn hnames ht
  exact List.Nodup.of_map Except.ok (hlabels ▸ hdistinct)

/-- An object has under every name the value whose key says so. -/
theorem mem_ofList_turns (hnames : HasNames (ts.map (·.entry))) (name : String) (x : Value) :
    (name, x) ∈ Fields.ofList (ts.map fun t => (nameOf t.entry.1, t.value))
      ↔ ∃ t ∈ ts, t.entry.1.fieldName = .ok name ∧ t.value = x := by
  rw [Fields.ofList, Fields.mem_foldl_insert _ (nodup_names_turns hnames)
    fun _ _ => List.not_mem_nil, iff_false_intro List.not_mem_nil, or_false, List.mem_map]
  constructor
  · rintro ⟨t, ht, heq⟩
    obtain ⟨rfl, rfl⟩ := Prod.mk.inj heq
    exact ⟨t, ht, fieldName_turn hnames ht, rfl⟩
  · rintro ⟨t, ht, hok, rfl⟩
    rw [fieldName_turn hnames ht] at hok
    exact ⟨t, ht, Prod.ext (Except.ok.inj hok) rfl⟩

theorem mem_names_turns (hnames : HasNames (ts.map (·.entry))) {name : String} :
    name ∈ Fields.names (Fields.ofList (ts.map fun t => (nameOf t.entry.1, t.value)))
      ↔ ∃ entry ∈ ts.map (·.entry), entry.1.fieldName = .ok name := by
  constructor
  · intro hn
    obtain ⟨⟨_, x⟩, hx, rfl⟩ := List.mem_map.1 hn
    obtain ⟨t, ht, hname, -⟩ := (mem_ofList_turns hnames _ x).1 hx
    exact ⟨t.entry, List.mem_map_of_mem ht, hname⟩
  · rintro ⟨entry, he, hname⟩
    obtain ⟨t, ht, rfl⟩ := List.mem_map.1 he
    have hfield := (mem_ofList_turns hnames name t.value).2 ⟨t, ht, hname, rfl⟩
    exact List.mem_map_of_mem (f := (·.1)) hfield

/-! ## The slots of an array -/

/-- **The keys decide whether a table is an array, and fill it.**  A table is an array of `n` items
exactly if its keys are `1, …, n` with `1 ≤ n`, in any order and each once, and otherwise an object.
Every key of an array then says a slot inside it, and the array converts exactly if the values do in
turn; what they are converted to is written to those slots, to each slot once, and nothing else is
left in any of them. -/
theorem slots_of_entries :
    (∀ (keys : List KeyKind) (n : Nat),
        Shape.ofKeys keys = .array n ↔ 1 ≤ n ∧ keys.Perm (Shape.indices n))
      ∧ (∀ keys : List KeyKind,
        Shape.ofKeys keys = .object ↔ ∀ n, 1 ≤ n → ¬ keys.Perm (Shape.indices n))
      ∧ (∀ keys keys' : List KeyKind, keys.Perm keys' → Shape.ofKeys keys' = Shape.ofKeys keys)
      ∧ ∀ (convert : GuestValue → Conversion Value) (entries : List (GuestValue × GuestValue))
        (n : Nat), Shape.ofKeys (entries.map (·.1.keyKind)) = .array n →
        (∀ entry ∈ entries, placeOf entry.1 < n
          ∧ entry.1.keyKind = Shape.keyOf (placeOf entry.1))
        ∧ ∀ (w u : World) (x : Value), (entriesToValue convert entries).on w = (.ok x, u)
          ↔ ∃ ts writes items, InTurn convert w ts u ∧ ts.map (·.entry) = entries
            ∧ writes = ts.map (fun t => (placeOf t.entry.1, t.value))
            ∧ (placedItems convert entries).on w = (.ok writes, u)
            ∧ x = .array items ∧ Filled n writes items := by
  refine ⟨fun _ _ => Shape.ofKeys_eq_array, fun _ => Shape.ofKeys_eq_object,
    fun _ _ => Shape.ofKeys_perm, fun convert entries n hshape => ?_⟩
  obtain ⟨-, hkeys⟩ := Shape.ofKeys_eq_array.1 hshape
  obtain ⟨hplace, hplaces⟩ := places_of_keys hkeys
  refine ⟨fun entry he => ⟨?_, hplace entry he⟩, fun w u x => ?_⟩
  · exact List.mem_range.1 (hplaces.mem_iff.1 (List.mem_map_of_mem he))
  rw [on_entriesToValue, hshape]
  constructor
  · rintro ⟨-, ts, hts, rfl, rfl⟩
    obtain ⟨items, hitems, hfilled⟩ := filled_putTogether hkeys
    exact ⟨ts, _, items, hts, rfl, rfl,
      (on_placedItems (exists_place hkeys)).2 ⟨ts, hts, rfl, rfl⟩, hitems, hfilled⟩
  · rintro ⟨ts, writes, items, hts, rfl, rfl, -, rfl, hfilled⟩
    obtain ⟨items', hitems', hfilled'⟩ := filled_putTogether hkeys
    refine ⟨fun hobject => Shape.noConfusion hobject, ts, hts, rfl, ?_⟩
    rw [hitems', hfilled.eq_of_perm hfilled' (.refl _)]

/-- A table whose keys come out of order. -/
def shuffled : List (GuestValue × GuestValue) :=
  [(.integer 3, .boolean true), (.integer 1, .boolean false), (.integer 2, .string ⟨#[]⟩)]

/-- The last item is the value that comes first. -/
theorem slots_of_entries_shuffled :
    Shape.ofKeys (shuffled.map (·.1.keyKind)) = .array 3
      ∧ ∃ items, (entriesToValue (({} : Converter).leafToValue 0) shuffled).on {}
          = (.ok (.array items), {})
        ∧ Filled 3 [(2, .bool true), (0, .bool false), (1, .string "")] items
        ∧ items[2]? = some (.bool true) := by
  have hshape : Shape.ofKeys (shuffled.map (·.1.keyKind)) = .array 3 := by decide +kernel
  have hplaced : (placedItems (({} : Converter).leafToValue 0) shuffled).on {}
      = (.ok [(2, .bool true), (0, .bool false), (1, .string "")], {}) := rfl
  obtain ⟨-, -, -, harray⟩ := slots_of_entries
  obtain ⟨-, hruns⟩ := harray (({} : Converter).leafToValue 0) shuffled 3 hshape
  obtain ⟨ts, writes, items, hts, hentries, -, hwrites, hx, hfilled⟩ :=
    (hruns {} {} (.array [.bool false, .string "", .bool true])).1 rfl
  obtain rfl := Except.ok.inj (congrArg Prod.fst (hwrites.symm.trans hplaced))
  refine ⟨hshape, items, hx ▸ rfl, hfilled, ?_⟩
  exact hfilled.kept (2, .bool true) List.mem_cons_self

end Converter
end ScriptPool
