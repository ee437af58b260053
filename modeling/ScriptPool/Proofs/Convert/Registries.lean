import ScriptPool.Proofs.Convert.LeafTrip

/-!
# Registries of codecs

A registry is good if its codecs keep the laws of `ScriptPool.Proofs.Convert.Courses`.  Then data
with custom values in it comes back as it was put in, however many codecs there are and in whatever
order they are asked.

That codecs keep the laws has to be shown of the whole registry.  It is here for the codecs of
pairs: each of them leaves alone what is not marked with its own tag, neither the tables of
aggregates nor the metatable of empty arrays are marked with any, and nobody touches the marks.

## What is here

* `Codec.decode_pair_self`, `Codec.decode_pair_other` — what the codec of pairs says to a table.
* `laws_of_pairs` — **registries of codecs of pairs are good**.
* `Recovered` — what a leaf of data comes back as.
* `registry_roundTrip` — **data comes back through a good registry**.
-/

set_option autoImplicit false

namespace ScriptPool

/-! ## The codec of pairs

The codec marks the table of a pair by a metatable, in which the tag stands under a name of its own.
It claims what has its mark and is shaped like a pair. -/

namespace Codec

theorem keyed_tagTable (tag : String) :
    GuestTable.IsKeyed [(.ofString tagField, .ofString tag)] := .singleton rfl rfl

/-- The metatable of the tables that the codec of a tag builds. -/
def tagTable (tag : String) : GuestTable where
  entries := [(.ofString tagField, .ofString tag)]
  keyed := keyed_tagTable tag

/-- The table that a pair becomes. -/
def pairTable (x y : Int64) (m : Nat) : GuestTable :=
  { GuestTable.ofFields [("x", .integer x), ("y", .integer y)] with metatable := some m }

variable {g : GuestState} {id m : Nat} {x y : Int64} {tag : String}

/-- **What the codec of pairs does**: it builds two tables, or refuses what is not a pair. -/
theorem encodePair_cases (tag : String) (k : Custom) (g : GuestState) :
    (∃ x y, k.payload = .pair x y ∧ encodePair tag k g = (.ok (.table (g.tables.size + 1)),
      ((g.newTable (tagTable tag)).2.newTable (pairTable x y g.tables.size)).2))
    ∨ ∃ e, encodePair tag k g = (.error e, g) := by
  rw [encodePair]
  split
  · rename_i x y hk
    have hsize : (g.newTable (tagTable tag)).2.tables.size = g.tables.size + 1 :=
      Array.size_push _
    refine .inl ⟨x, y, hk, ?_⟩
    rw [← hsize]
    rfl
  · exact .inr ⟨_, rfl⟩

theorem sparesMarker_pair (tag : String) : (pair tag).SparesMarker := by
  intro k g
  show (encodePair tag k g).2.arrayMarker = g.arrayMarker
  obtain ⟨x, y, -, hencode⟩ | ⟨e, hencode⟩ := encodePair_cases tag k g
  · rw [hencode]
    rfl
  · rw [hencode]

theorem toHostString?_ofString (name : String) :
    (GuestValue.ofString name).toHostString? = .ok (some name) := by
  have htext : (GuestValue.ofString name).toHostString = .ok name := by
    rw [GuestValue.toHostString, GuestValue.ofString, GuestValue.scalarText?]
    dsimp only
    rw [GuestValue.fromUTF8?_toUTF8]
  show (GuestValue.ofString name).toHostString.map some = _
  rw [htext]
  rfl

theorem field_tagTable (tag : String) : (tagTable tag).field tagField = .ofString tag :=
  GuestTable.find_of_mem rfl (GuestTable.rawEqual_ofString tagField) List.mem_cons_self

theorem field_pairTable (x y : Int64) (m : Nat) :
    (pairTable x y m).field "x" = .integer x ∧ (pairTable x y m).field "y" = .integer y := by
  have hnames : ([("x", .integer x), ("y", .integer y)].map
      fun field : String × GuestValue => field.1).Nodup := by
    show ["x", "y"].Nodup
    decide
  exact ⟨GuestTable.get_ofFields hnames List.mem_cons_self,
    GuestTable.get_ofFields hnames (List.mem_cons_of_mem _ List.mem_cons_self)⟩

/-- A table without a metatable is left alone. -/
theorem decode_pair_plain (h : (g.table id).metatable = none) :
    (pair tag).decode g (.table id) = .ok none := by
  simp only [pair, h]

/-- So is a table that is marked with another tag, or with none. -/
theorem decode_pair_other {name : Option String} (h : (g.table id).metatable = some m)
    (hm : ((g.table m).field tagField).toHostString? = .ok name) (hne : name ≠ some tag) :
    (pair tag).decode g (.table id) = .ok none := by
  simp only [pair, h, hm]
  exact if_neg hne

/-- What is marked with the tag is claimed. -/
theorem decode_pair_self (h : g.table id = pairTable x y m) (hm : g.table m = tagTable tag) :
    (pair tag).decode g (.table id) = .ok (some (.pair x y)) := by
  obtain ⟨hx, hy⟩ := field_pairTable x y m
  simp only [pair, h, hx, hy]
  dsimp only [pairTable]
  rw [hm, field_tagTable, toHostString?_ofString]
  exact if_pos rfl

end Codec

/-! ## Registries of codecs of pairs

The invariant is that every table that was made for a pair or an aggregate still has the metatable
that it was made with, and every such metatable its tag. -/

theorem GuestTable.keyed_markerTable :
    GuestTable.IsKeyed [(.ofString "__shape", .ofString "array")] := .singleton rfl rfl

/-- The metatable that marks empty arrays, as it is made. -/
def GuestState.markerTable : GuestTable where
  entries := [(.ofString "__shape", .ofString "array")]
  keyed := GuestTable.keyed_markerTable

/-- The metatable that marks empty arrays, if it has been made, is as it was made. -/
def GuestState.HasPlainMarker (g : GuestState) : Prop :=
  ∀ m, g.arrayMarker = some m → g.tables[m]? = some markerTable

/-- What has been made of aggregates and pairs is in the heap, and marked as it was. -/
inductive Maker.Stands (g : GuestState) : GuestValue → Maker → Prop where
  | aggregate {id : Nat} {t : GuestTable} (ht : g.tables[id]? = some t)
      (hm : ∀ m, t.metatable = some m → g.tables[m]? = some GuestState.markerTable) :
      Stands g (.table id) (.aggregate t)
  | carrier (v : GuestValue) (x : Value) : Stands g v (.carrier x)
  | pair {id m : Nat} {x y : Int64} {tag : String}
      (ht : g.tables[id]? = some (Codec.pairTable x y m))
      (hm : g.tables[m]? = some (Codec.tagTable tag)) :
      Stands g (.table id) (.codec tag (.pair x y))

theorem Maker.Stands.mono {g g' : GuestState} {v : GuestValue} {maker : Maker}
    (h : maker.Stands g v) (hg : g.Extends g') : maker.Stands g' v := by
  cases h with
  | aggregate ht hm => exact .aggregate (hg.tables ht) fun m h => hg.tables (hm m h)
  | carrier v x => exact .carrier v x
  | pair ht hm => exact .pair (hg.tables ht) (hg.tables hm)

namespace Converter

/-- All codecs are codecs of pairs, each for the tag it is registered under. -/
def ArePairs (c : Converter) (codecs : Array Codec) : Prop :=
  ∀ entry ∈ c.codecs, ∀ codec, codecs[entry.2]? = some codec → codec = Codec.pair entry.1

variable {c : Converter} {codecs : Array Codec} {g : GuestState} {p : Course} {v : GuestValue}
  {tag : String} {codec : Codec}

theorem ArePairs.codecFor (h : c.ArePairs codecs) (hcodec : c.codecFor codecs tag = some codec) :
    codec = Codec.pair tag := by
  obtain ⟨i, hi, hthere⟩ := Option.bind_eq_some_iff.1 hcodec
  obtain ⟨entry, hentry, rfl⟩ := Option.map_eq_some_iff.1 hi
  have htag := List.find?_some hentry
  obtain rfl : entry.1 = tag := eq_of_beq htag
  exact h entry (List.mem_of_find?_eq_some hentry) codec hthere

/-- What is made stays as it was made. -/
theorem stands_of_possible (hc : c.ArePairs codecs) (hg : g.HasPlainMarker)
    (hp : c.Possible codecs g p) :
    p.heap.HasPlainMarker ∧ ∀ entry ∈ p.made, entry.2.Stands p.heap entry.1 := by
  induction hp with
  | refl => exact ⟨hg, fun _ h => absurd h List.not_mem_nil⟩
  | @tail p _ _ hstep ih =>
    obtain ⟨hmarker, hmade⟩ := ih
    cases hstep with
    | @table t ht =>
      have hnew := GuestState.extends_newTable p.heap t
      refine ⟨fun m hm => hnew.tables (hmarker m hm), List.forall_mem_cons.2 ⟨.aggregate ?_ ?_,
        fun entry hentry => (hmade entry hentry).mono hnew⟩⟩
      · exact GuestState.getElem?_newTable p.heap t
      · exact fun m hm => hnew.tables (hmarker m (arrayMarker_of_structural ht hm))
    | marker =>
      refine ⟨?_, fun entry hentry =>
        (hmade entry hentry).mono (GuestState.extends_arrayMarkerTable p.heap)⟩
      dsimp only
      rw [GuestState.arrayMarkerTable]
      cases hm : p.heap.arrayMarker with
      | some m => exact hmarker
      | none =>
        rintro m ⟨⟩
        exact GuestState.getElem?_newTable p.heap GuestState.markerTable
    | function f =>
      exact ⟨hmarker, fun entry hentry =>
        (hmade entry hentry).mono (GuestState.extends_newFunction p.heap f)⟩
    | carry x =>
      exact ⟨hmarker, List.forall_mem_cons.2 ⟨.carrier _ x, fun entry hentry =>
        (hmade entry hentry).mono (GuestState.extends_newUserdata p.heap _)⟩⟩
    | @encode k codec v g' hcodec run =>
      obtain rfl := hc.codecFor hcodec
      have run : Codec.encodePair k.tag k p.heap = (.ok v, g') := run
      obtain ⟨x, y, hk, hencode⟩ | ⟨e, hencode⟩ := Codec.encodePair_cases k.tag k p.heap
      · rw [hencode] at run
        cases run
        let marked := (p.heap.newTable (Codec.tagTable k.tag)).2
        have hmarked := GuestState.extends_newTable p.heap (Codec.tagTable k.tag)
        have hnew := GuestState.extends_newTable marked (Codec.pairTable x y p.heap.tables.size)
        have hsize : marked.tables.size = p.heap.tables.size + 1 := Array.size_push _
        refine ⟨fun m hm => hnew.tables (hmarked.tables (hmarker m hm)),
          List.forall_mem_cons.2 ⟨?_, fun entry hentry =>
            (hmade entry hentry).mono (hmarked.trans hnew)⟩⟩
        show Maker.Stands _ (.table (p.heap.tables.size + 1)) (.codec k.tag k.payload)
        rw [hk, ← hsize]
        exact .pair (GuestState.getElem?_newTable marked _)
          (hnew.tables (GuestState.getElem?_newTable p.heap _))
      · rw [hencode] at run
        cases run

/-- **Registries of codecs of pairs are good.** -/
theorem laws_of_pairs (hc : c.ArePairs codecs) (hg : g.HasPlainMarker) :
    c.Lawful codecs g ∧ c.Disjoint codecs g ∧ c.Undisturbed codecs g := by
  refine ⟨fun p hp v tag payload codec hmade hcodec => ?_,
    ⟨fun p hp v tag payload hmade entry hentry hne codec hcodec => ?_,
      fun p hp v t hmade entry hentry _ codec hcodec => ?_⟩,
    undisturbed_of_additive (fun m hm => ⟨_, hg m hm, rfl⟩) fun tag codec hcodec => ?_⟩
  · obtain rfl := hc.codecFor hcodec
    cases (stands_of_possible hc hg hp).2 _ hmade with
    | pair ht hm =>
      exact ⟨Codec.decode_pair_self (GuestState.table_of_getElem? ht)
        (GuestState.table_of_getElem? hm), .inl ⟨_, rfl⟩⟩
  · obtain rfl := hc entry hentry codec hcodec
    cases (stands_of_possible hc hg hp).2 _ hmade with
    | @pair id m _ _ _ ht hm =>
      have hmeta : (p.heap.table id).metatable = some m := by
        rw [GuestState.table_of_getElem? ht]
        rfl
      have hname : ((p.heap.table m).field Codec.tagField).toHostString? = .ok (some tag) := by
        rw [GuestState.table_of_getElem? hm, Codec.field_tagTable, Codec.toHostString?_ofString]
      exact Codec.decode_pair_other hmeta hname (Ne.symm hne)
  · obtain rfl := hc entry hentry codec hcodec
    cases (stands_of_possible hc hg hp).2 _ hmade with
    | @aggregate _ _ ht hm =>
      have htable := GuestState.table_of_getElem? ht
      cases hmeta : t.metatable with
      | none => exact Codec.decode_pair_plain (htable ▸ hmeta)
      | some m =>
        have hname : ((p.heap.table m).field Codec.tagField).toHostString? = .ok none := by
          rw [GuestState.table_of_getElem? (hm m hmeta)]
          rfl
        exact Codec.decode_pair_other (htable ▸ hmeta) hname fun h => nomatch h
  · obtain rfl := hc.codecFor hcodec
    exact ⟨Codec.isAdditive_pair tag, Codec.sparesMarker_pair tag⟩

end Converter

/-! ## Data -/

theorem Value.isNil_of_same {x z : Value} (h : z.same x = true) : z.isNil = x.isNil := by
  cases x with
  | nil =>
    cases z with
    | nil => rfl
    | _ => cases h
  | _ =>
    cases z with
    | nil => cases h
    | _ => rfl

namespace Converter

/-- What a leaf of data comes back as: a custom value that has a codec as one with that tag and the
payload that the codec has for it, any other as it was, and everything else as something equal. -/
inductive Recovered (c : Converter) (codecs : Array Codec) : Value → Value → Prop where
  | equal {x z : Value} (hx : ∀ k, x ≠ .custom k) (h : z.same x = true) : Recovered c codecs x z
  | carried {k : Custom} (hcodec : c.codecFor codecs k.tag = none) :
      Recovered c codecs (.custom k) (.custom k)
  | decoded {k : Custom} {codec : Codec} (handle : Handle)
      (hcodec : c.codecFor codecs k.tag = some codec) :
      Recovered c codecs (.custom k) (.custom ⟨k.tag, k.payload, handle⟩)

variable {c : Converter} {codecs : Array Codec} {s : Nat} {g : GuestState} {w : World}
  {p : Course} {v : GuestValue} {x z : Value} {tag : String}

theorem Crossed.recovered (h : Crossed c codecs s x z) (hx : x.IsData) :
    Recovered c codecs x z := by
  cases h with
  | nil => exact .equal (fun _ h => nomatch h) rfl
  | bool b => exact .equal (fun _ h => nomatch h) (beq_self_eq_true b)
  | number y =>
    cases hx with
    | number hy => exact .equal (fun _ h => nomatch h) (settled_beq hy)
  | string text => exact .equal (fun _ h => nomatch h) (beq_self_eq_true text)
  | function f => nomatch hx
  | error e => exact .equal (fun _ h => nomatch h) (beq_self_eq_true e.message)
  | channel ch =>
    refine .equal (fun _ h => nomatch h) ?_
    rw [Value.same, beq_self_eq_true, beq_self_eq_true, Bool.and_self]
  | text hk =>
    cases hx with
    | custom bytes guest => exact absurd hk (bytes _)
  | bytes _ hk =>
    cases hx with
    | custom bytes guest => exact absurd hk (bytes _)
  | home _ hk =>
    cases hx with
    | custom bytes guest => exact absurd hk (guest _ _)
  | carried _ hcodec => exact .carried hcodec
  | claimed handle _ hcodec => exact .decoded handle hcodec

theorem Recovered.isNil (h : Recovered c codecs x z) : z.isNil = x.isNil := by
  cases h with
  | equal _ h => exact Value.isNil_of_same h
  | carried => rfl
  | decoded => rfl

theorem Recovered.of_codec {k : Custom} {codec : Codec} (h : Recovered c codecs (.custom k) z)
    (hcodec : c.codecFor codecs k.tag = some codec) :
    ∃ handle, z = .custom ⟨k.tag, k.payload, handle⟩ := by
  cases h with
  | equal hx => exact absurd rfl (hx k)
  | carried hnone =>
    rw [hnone] at hcodec
    cases hcodec
  | decoded handle => exact ⟨handle, rfl⟩

/-- **Data comes back through a good registry.**  Take codecs that claim what they have made, and
nothing that others or conversions have made, and that leave alone what is there.  Then data without
`nil`s in its aggregates, no deeper than the limit, that is put into a guest state and read back
comes back as it was, each custom value that has a codec with its tag and its payload.  It is put in
unless the codec of one of the custom values refuses that value. -/
theorem registry_roundTrip (hs : s < w.states.size) (hlawful : c.Lawful w.codecs (w.state s))
    (hdisjoint : c.Disjoint w.codecs (w.state s)) (hkept : c.Undisturbed w.codecs (w.state s))
    (hx : x.IsData) (hwhole : x.Whole) (hdepth : x.depth ≤ c.maxDepth) :
    (∃ y, c.Returns s w x y ∧ x.Leafwise (Recovered c w.codecs) y) ∨ c.IsRefused s w x := by
  have hfits : x.Leaves (c.Fitting w.codecs (w.state s) s) := by
    refine hx.leaves.mono fun y _ hy k o hk ho => ?_
    subst hk
    cases hy with
    | custom _ guest => exact absurd ho (guest _ _)
  refine (crosses_leafwise hs hlawful hdisjoint hkept hdepth hfits).imp_left ?_
  rintro ⟨z, hreturns, hleafwise⟩
  have hrecovered : x.Leafwise (Recovered c w.codecs) z :=
    hleafwise.mono_of_leaves hx.leaves fun _ _ hdata hcrossed => hcrossed.recovered hdata
  have hnorm : z.norm = z := Value.normBy_id (hrecovered.whole (fun _ _ h => h.isNil) hwhole)
  exact ⟨z, hnorm ▸ hreturns, hrecovered⟩

/-- A world with one guest state, in which there are codecs of pairs for two tags. -/
def withPairs : World where
  states := #[{}]
  codecs := #[Codec.pair "p", Codec.pair "q"]

/-- Pairs with either tag, one deeper than the other. -/
def points : Value :=
  .array [.custom ⟨"q", .pair 3 4, 0⟩, .object [("at", .custom ⟨"p", .pair 1 2, 1⟩)]]

/-- Both pairs come back under their own tags. -/
theorem registry_roundTrip_pairs : ∃ first second,
    Returns { codecs := [("p", 0), ("q", 1)] } 0 withPairs points
      (.array [.custom ⟨"q", .pair 3 4, first⟩,
        .object [("at", .custom ⟨"p", .pair 1 2, second⟩)]]) := by
  have hpairs : ArePairs { codecs := [("p", 0), ("q", 1)] } withPairs.codecs := by
    intro entry hentry codec hcodec
    rcases List.mem_pair.1 hentry with rfl | rfl
    · exact (Option.some.inj hcodec).symm
    · exact (Option.some.inj hcodec).symm
  have hp : codecFor { codecs := [("p", 0), ("q", 1)] } withPairs.codecs "p"
      = some (Codec.pair "p") := rfl
  have hq : codecFor { codecs := [("p", 0), ("q", 1)] } withPairs.codecs "q"
      = some (Codec.pair "q") := rfl
  obtain ⟨hlawful, hdisjoint, hkept⟩ := laws_of_pairs (g := withPairs.state 0) hpairs
    fun _ h => nomatch h
  have hdata : points.IsData := by
    refine .array (by decide) fun x hx => ?_
    rcases List.mem_pair.1 hx with rfl | rfl
    · exact .custom (fun _ h => nomatch h) fun _ _ h => nomatch h
    · refine .object (List.pairwise_singleton _ _) fun field hfield => ?_
      rw [List.mem_singleton.1 hfield]
      exact .custom (fun _ h => nomatch h) fun _ _ h => nomatch h
  have hwhole : points.Whole := by
    refine .array (fun x hx => ?_) fun x hx => ?_
    · rcases List.mem_pair.1 hx with rfl | rfl
      · rfl
      · rfl
    · rcases List.mem_pair.1 hx with rfl | rfl
      · exact .leaf (fun _ h => nomatch h) fun _ h => nomatch h
      · refine .object (fun field hfield => ?_) fun field hfield => ?_
        · rw [List.mem_singleton.1 hfield]
          rfl
        · rw [List.mem_singleton.1 hfield]
          exact .leaf (fun _ h => nomatch h) fun _ h => nomatch h
  rcases registry_roundTrip (c := { codecs := [("p", 0), ("q", 1)] }) (w := withPairs) (s := 0)
    Nat.zero_lt_one hlawful hdisjoint hkept hdata hwhole (by decide)
    with ⟨y, hreturns, hleafwise⟩ | ⟨k, codec, g, g', e, u, hk, -, hcodec, hencode, -⟩
  · cases hleafwise with
    | leaf hx => exact hx.elim
    | @array _ zs length items =>
      obtain ⟨y, z, rfl⟩ := List.length_eq_two.1 length.symm
      cases items 0 _ y rfl rfl with
      | leaf _ _ hfirst =>
        obtain ⟨first, rfl⟩ := hfirst.of_codec hq
        cases items 1 _ z rfl rfl with
        | leaf hx => exact hx.elim
        | object names fields =>
          obtain ⟨⟨name, z⟩, rfl, rfl⟩ := List.map_eq_singleton_iff.1 names.symm
          cases fields 0 _ _ rfl rfl with
          | leaf _ _ hsecond =>
            obtain ⟨second, rfl⟩ := hsecond.of_codec hp
            exact ⟨first, second, hreturns⟩
  · -- the codecs accept pairs
    cases hk with
    | item hx hk =>
      rcases List.mem_pair.1 hx with rfl | rfl
      · cases hk
        cases hcodec
        cases hencode
      · cases hk with
        | field hfield hk =>
          rw [List.mem_singleton.1 hfield] at hk
          cases hk
          cases hcodec
          cases hencode

end Converter
end ScriptPool
