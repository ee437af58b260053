import ScriptPool.Proofs.Convert.Entries
import ScriptPool.Proofs.Guest.Paths

/-!
# Converting graphs of tables

Values of the guest form a graph, canonical values form trees.  A conversion walks along every path
from the root, with the tables on the way in hand, and it comes to an end because every table that
it enters takes one from the depth limit.

## What is here

* `Unfolds` — a canonical value is the tree unfolding of a guest value.
* `Fault` — what a failure says about the graph: a table on its own trail, or a trail of different
  tables that is longer than the limit.
* `toValueAt_meets` — one induction on what is left of the limit, for all of it: a value converts
  exactly if it fits, and then to its unfolding.
* `toValue_graph` — the same from the root, with what follows for cycles.

Nothing is assumed about the shape of the graph.  The tables must have keys that can be field names,
without two of one name, and no metatables, since a metatable can change what an empty table is.
-/

set_option autoImplicit false

namespace ScriptPool

/-! ## The world during a conversion -/

/-- A world in which handles were given out since, and nothing else has changed. -/
structure World.Grows (w w' : World) : Prop where
  states : w'.states = w.states
  functions : ∀ (h : Handle) (f : Callable), w.functions[h]? = some f → w'.functions[h]? = some f

theorem World.Grows.refl (w : World) : w.Grows w := ⟨rfl, fun _ _ h => h⟩

theorem World.Grows.trans {w w' w'' : World} (h : w.Grows w') (h' : w'.Grows w'') : w.Grows w'' :=
  ⟨h'.states.trans h.states, fun i f hf => h'.functions i f (h.functions i f hf)⟩

theorem World.Grows.state {w w' : World} (h : w.Grows w') (s : Nat) : w'.state s = w.state s := by
  rw [World.state, h.states, World.state]

/-- The same, with codecs that may look at the states.  Handles are given out in order. -/
structure World.Dealt (w w' : World) : Prop extends World.Grows w w' where
  codecs : w'.codecs = w.codecs
  handles : w.handles ≤ w'.handles

theorem World.Dealt.refl (w : World) : w.Dealt w := ⟨.refl w, rfl, Nat.le_refl _⟩

theorem World.Dealt.trans {w w' w'' : World} (h : w.Dealt w') (h' : w'.Dealt w'') : w.Dealt w'' :=
  ⟨h.toGrows.trans h'.toGrows, h'.codecs.trans h.codecs, h.handles.trans h'.handles⟩

namespace Converter

variable {c : Converter} {s root : Nat} {w w' : World} {v : GuestValue} {x : Value}

/-! ## Unfoldings

The result is described first, and without the walk: a canonical value unfolds a value of the guest
if it has, along every path, what the guest has there.  A table that is shared unfolds as often as
it is come upon. -/

/-- The canonical form of a value that is not a table.  What has no structural form has a handle:
that of a function stands for it in the world, that of another object comes with the object itself.
-/
def ShowsLeaf (c : Converter) (s : Nat) (w : World) (v : GuestValue) (x : Value) : Prop :=
  match v with
  | .nil => x = .nil
  | .boolean b => x = .bool b
  | .integer n => x = .number (Float.ofInt n.toInt)
  | .float y => x = .number y
  | .string bytes =>
      match String.fromUTF8? bytes with
      | some text => x = .string text
      | none => ∃ h, x = .custom ⟨"bytes", .bytes bytes, h⟩
  | .function id => ∃ h, w.functions[h]? = some (.guest ⟨s, id, c, (w.state s).epoch⟩)
      ∧ x = .function ⟨"anonymous", h⟩
  | .object o =>
      match (w.state s).carried? o with
      | some held => x = held
      | none => ∃ h, x = .custom ⟨o.typeName, .guest s o, h⟩
  | .fault f => x = .error ⟨f.message, none⟩
  | .table _ => False

/-- A canonical value is the tree unfolding of a guest value.  A table with the keys `1, …, n` is an
array of what its values unfold to, any other table an object with a field for every entry. -/
inductive Unfolds (c : Converter) (s : Nat) (w : World) : GuestValue → Value → Prop where
  | leaf {v : GuestValue} {x : Value} (h : ShowsLeaf c s w v x) : Unfolds c s w v x
  | array {id : Nat} {items : List Value} (nonempty : 1 ≤ items.length)
      (keys : (((w.state s).table id).entries.map (·.1.keyKind)).Perm
        (Shape.indices items.length))
      (values : ∀ entry ∈ ((w.state s).table id).entries, ∀ place x,
        entry.1.keyKind = Shape.keyOf place → items[place]? = some x →
        Unfolds c s w entry.2 x) :
      Unfolds c s w (.table id) (.array items)
  | object {id : Nat} {fields : Fields}
      (keys : ∀ n, 1 ≤ n → ¬ (((w.state s).table id).entries.map (·.1.keyKind)).Perm
        (Shape.indices n))
      (sorted : Fields.Sorted fields)
      (names : ∀ name, name ∈ fields.names
        ↔ ∃ entry ∈ ((w.state s).table id).entries, entry.1.fieldName = .ok name)
      (values : ∀ entry ∈ ((w.state s).table id).entries, ∀ name x,
        entry.1.fieldName = .ok name → (name, x) ∈ fields → Unfolds c s w entry.2 x) :
      Unfolds c s w (.table id) (.object fields)

theorem ShowsLeaf.mono (hw : w.Grows w') (h : ShowsLeaf c s w v x) : ShowsLeaf c s w' v x := by
  cases v with
  | function id =>
    obtain ⟨i, hf, hx⟩ := h
    refine ⟨i, ?_, hx⟩
    rw [hw.state]
    exact hw.functions i _ hf
  | object o =>
    rw [ShowsLeaf] at h ⊢
    rw [hw.state]
    exact h
  | _ => exact h

theorem Unfolds.mono (hw : w.Grows w') (h : Unfolds c s w v x) : Unfolds c s w' v x := by
  induction h with
  | leaf h => exact .leaf (h.mono hw)
  | array nonempty keys values ih =>
    rw [← hw.state] at keys ih
    exact .array nonempty keys ih
  | object keys sorted names values ih =>
    rw [← hw.state] at keys names ih
    exact .object keys sorted names ih

/-- What is assembled from unfoldings is an unfolding. -/
theorem unfolds_of_assembled {id : Nat} {shows : GuestValue → Value → Prop}
    (hshows : ∀ v x, shows v x → Unfolds c s w v x)
    (h : Assembled shows ((w.state s).table id).entries x) : Unfolds c s w (.table id) x := by
  cases x with
  | array items =>
    obtain ⟨⟨hn, hperm⟩, hitems⟩ := h
    refine .array hn hperm fun entry he place x hkey hx => ?_
    obtain ⟨x', hx', hv⟩ := hitems entry he place hkey
    obtain rfl : x = x' := Option.some.inj (hx.symm.trans hx')
    exact hshows _ _ hv
  | object fields =>
    obtain ⟨hobject, hsorted, hnames, hfields⟩ := h
    refine .object hobject hsorted (fun name => ⟨fun hn => ?_, ?_⟩) fun entry he name x hname hx => ?_
    · obtain ⟨field, hf, rfl⟩ := List.mem_map.1 hn
      exact hnames field hf
    · rintro ⟨entry, he, hname⟩
      obtain ⟨x, hx, -⟩ := hfields entry he name hname
      exact List.mem_map_of_mem hx
    · obtain ⟨x', hx', hv⟩ := hfields entry he name hname
      have heq := (Fields.get?_eq_some hsorted).2 hx
      rw [(Fields.get?_eq_some hsorted).2 hx'] at heq
      obtain rfl : x' = x := Option.some.inj heq
      exact hshows _ _ hv
  | _ => exact h.elim

/-! ## The walk

The induction is on what is left of the limit.  What it shows of a value is both directions at once,
since a table converts exactly if its values do, each with one less of the limit. -/

/-- What is not a table always converts. -/
theorem leafToValue_on (hc : c.codecs = []) (hv : ∀ id, v ≠ .table id) (w : World) :
    ∃ x w', (c.leafToValue s v).on w = (.ok x, w') ∧ w.Grows w' ∧ ShowsLeaf c s w' v x := by
  cases v with
  | nil => exact ⟨_, w, rfl, World.Grows.refl w, rfl⟩
  | boolean b => exact ⟨_, w, rfl, World.Grows.refl w, rfl⟩
  | integer n => exact ⟨_, w, rfl, World.Grows.refl w, rfl⟩
  | float y => exact ⟨_, w, rfl, World.Grows.refl w, rfl⟩
  | fault f => exact ⟨_, w, rfl, World.Grows.refl w, rfl⟩
  | table id => exact absurd rfl (hv id)
  | string bytes =>
    rw [leafToValue]
    cases hs : String.fromUTF8? bytes with
    | some text =>
      refine ⟨.string text, w, rfl, World.Grows.refl w, ?_⟩
      rw [ShowsLeaf, hs]
    | none =>
      refine ⟨.custom ⟨"bytes", .bytes bytes, w.handles⟩, { w with handles := w.handles + 1 }, rfl,
        ⟨rfl, fun _ _ h => h⟩, ?_⟩
      rw [ShowsLeaf, hs]
      exact ⟨_, rfl⟩
  | function id =>
    let f : Callable := .guest ⟨s, id, c, (w.state s).epoch⟩
    refine ⟨.function ⟨"anonymous", w.functions.size⟩,
      { w with functions := w.functions.push f }, rfl, ⟨rfl, fun h f' hf => ?_⟩,
      w.functions.size, Array.getElem?_push_size, rfl⟩
    obtain ⟨hlt, -⟩ := Array.getElem?_eq_some_iff.1 hf
    rw [Array.getElem?_push_lt hlt, ← hf, Array.getElem?_eq_getElem hlt]
  | object o =>
    have hnew : ∀ x w', (w.state s).carried? o = none →
        x = .custom ⟨o.typeName, .guest s o, w.handles⟩ →
        w' = { w with handles := w.handles + 1 } →
        w.Grows w' ∧ ShowsLeaf c s w' (.object o) x := by
      rintro x w' ho rfl rfl
      refine ⟨⟨rfl, fun _ _ h => h⟩, ?_⟩
      rw [ShowsLeaf]
      exact ho.symm ▸ ⟨w.handles, rfl⟩
    cases o with
    | thread id => exact ⟨_, _, rfl, hnew _ _ rfl rfl rfl⟩
    | lightUserdata address => exact ⟨_, _, rfl, hnew _ _ rfl rfl rfl⟩
    | userdata id =>
      cases ho : (w.state s).carried? (.userdata id) with
      | some held =>
        refine ⟨held, w, leafToValue_carried ho, World.Grows.refl w, ?_⟩
        rw [ShowsLeaf, ho]
      | none =>
        refine ⟨_, _, ?_, hnew _ _ ho rfl rfl⟩
        rw [leafToValue, Conversion.on_get_bind, ho, hc]
        rfl

/-- What a failure says about the graph. -/
inductive Fault (c : Converter) (g : GuestState) (root : Nat) : ConvertError → Prop where
  /-- A table is on its own trail, and the trail is within the limit. -/
  | circular {path : List Nat} {id : Nat} (trail : g.Trail root path id)
      (short : path.length ≤ c.maxDepth) (again : id ∈ path) : Fault c g root .circular
  /-- A trail of different tables goes beyond the limit. -/
  | tooDeep {path : List Nat} {id : Nat} (trail : g.Trail root path id)
      (distinct : (id :: path).Nodup) (long : path.length = c.maxDepth) :
      Fault c g root (.tooDeep c.maxDepth)

/-- The tables that can be reached have keys that can be field names, and no metatables. -/
def PlainFrom (g : GuestState) (root : Nat) : Prop :=
  ∀ id, g.Reaches root id → (g.table id).metatable = none ∧ HasNames (g.table id).entries

/-- What is shown of the conversion of a value, of which so much of the limit is left. -/
def walk (c : Converter) (s root : Nat) (g : GuestState) (remaining : Nat) : Behaviour where
  Grows := World.Grows
  Shows w v x := Unfolds c s w v x ∧ g.Fits remaining v
  Fails v e := Fault c g root e ∧ ¬ g.Fits remaining v
  refl := World.Grows.refl
  trans := World.Grows.trans
  mono hw h := ⟨h.1.mono hw, h.2⟩

section Walk

variable {g : GuestState} {remaining id : Nat} {path : List Nat}

theorem meets_leaf (hc : c.codecs = []) (hv : ∀ id, v ≠ .table id) :
    (walk c s root g remaining).Meets v w ((c.toValueAt s remaining path v).on w) := by
  obtain ⟨x, w', hx, hgrows, hshows⟩ := leafToValue_on hc hv w
  rw [on_toValueAt_leaf hv, hx]
  exact ⟨hgrows, .leaf hshows, GuestState.fits_of_ne_table hv remaining⟩

/-- A table on its own trail does not convert, and does not fit. -/
theorem meets_circular (hc : c.codecs = []) (hlen : path.length + remaining = c.maxDepth)
    (htrail : g.Trail root path id) (hid : id ∈ path) :
    (walk c s root g remaining).Meets (.table id) w
      ((c.toValueAt s remaining path (.table id)).on w) := by
  rw [on_toValueAt_circular hc hid]
  exact ⟨World.Grows.refl w, .circular htrail (by omega) hid,
    GuestState.not_fits_of_onCycle (htrail.onCycle hid) remaining⟩

/-- A table with entries converts as they do: to what is assembled from them, or it fails with one
of them. -/
theorem meets_entries {convert : GuestValue → Conversion Value} (hw : w.state s = g)
    (hnames : HasNames (g.table id).entries)
    (hmeets : (walk c s root g remaining).MeetsAll convert (g.table id).entries w) :
    (walk c s root g (remaining + 1)).Meets (.table id) w
      ((entriesToValue convert (g.table id).entries).on w) := by
  obtain ⟨hgrows, hout⟩ := entriesToValue_meets hmeets hnames
  refine ⟨hgrows, ?_⟩
  rcases hr : (entriesToValue convert (g.table id).entries).on w with ⟨e | x, w'⟩
  · rw [hr] at hout
    obtain ⟨entry, hmem, hfault, hfits⟩ := hout
    exact ⟨hfault, fun h => hfits (GuestState.fits_table_succ.1 h entry hmem)⟩
  · rw [hr] at hgrows hout
    have hshows : ∀ v y, (walk c s root g remaining).Shows w' v y → Unfolds c s w' v y :=
      fun _ _ h => h.1
    refine ⟨unfolds_of_assembled hshows ?_, GuestState.fits_table_succ.2 fun entry hmem => ?_⟩
    · rw [hgrows.state, hw]
      exact hout
    · obtain ⟨y, -, hfits⟩ := hout.exists hnames hmem
      exact hfits

/-- **A value converts exactly if it fits, and then to its unfolding.**  The walk is at the end of a
trail of different tables, whose length and what is left of the limit make up the limit. -/
theorem toValueAt_meets (hc : c.codecs = []) (hplain : PlainFrom g root) (remaining : Nat) :
    ∀ {path : List Nat} {v : GuestValue} {w : World}, w.state s = g → path.Nodup →
      path.length + remaining = c.maxDepth → (∀ id, v = .table id → g.Trail root path id) →
      (walk c s root g remaining).Meets v w ((c.toValueAt s remaining path v).on w) := by
  induction remaining with
  | zero =>
    intro path v w hw hnodup hlen htrail
    by_cases hv : ∀ id, v ≠ .table id
    · exact meets_leaf hc hv
    · obtain ⟨id, hid⟩ := not_forall_not.1 hv
      subst hid
      have htrail := htrail id rfl
      by_cases hid : id ∈ path
      · exact meets_circular hc hlen htrail hid
      · rw [toValueAt_table_zero hc, on_tableToValue_tooDeep hid]
        exact ⟨World.Grows.refl w, .tooDeep htrail (List.nodup_cons.2 ⟨hid, hnodup⟩) hlen,
          GuestState.not_fits_zero⟩
  | succ left ih =>
    intro path v w hw hnodup hlen htrail
    by_cases hv : ∀ id, v ≠ .table id
    · exact meets_leaf hc hv
    · obtain ⟨id, hid⟩ := not_forall_not.1 hv
      subst hid
      have htrail := htrail id rfl
      by_cases hid : id ∈ path
      · exact meets_circular hc hlen htrail hid
      · obtain ⟨hmeta, hnames⟩ := hplain id htrail.reaches
        rw [toValueAt_table_succ hc]
        by_cases he : (g.table id).entries = []
        · have hm : (w.state s).isMarkedArray ((w.state s).table id) = .ok false := by
            rw [hw, GuestState.isMarkedArray, hmeta]
          rw [on_tableToValue_empty hid (Nat.succ_ne_zero left) (hw ▸ he) hm]
          refine ⟨World.Grows.refl w, unfolds_of_assembled (fun _ _ h => h) ?_, ?_⟩
          · rw [hw, he]
            exact assembled_nil _
          · rw [GuestState.fits_table_succ, he]
            exact fun _ h => absurd h List.not_mem_nil
        · rw [on_tableToValue_entries hid (Nat.succ_ne_zero left) (hw ▸ he)]
          have hmeets : (walk c s root g left).MeetsAll (c.toValueAt s left (id :: path))
              (g.table id).entries w := by
            rintro ⟨key, v⟩ hmem w' hw'
            refine ih ((hw'.state s).trans hw) (List.nodup_cons.2 ⟨hid, hnodup⟩) ?_ ?_
            · rw [List.length_cons]
              omega
            · rintro b rfl
              exact htrail.step ⟨key, hmem⟩
          rw [hw]
          exact meets_entries hw hnames hmeets

end Walk

/-! ## From the root -/

/-- Around a ring, a walk comes back to a table exactly if the limit lets it come so far. -/
theorem circular_iff_of_isRing {g : GuestState} {length : Nat} {t : Nat → Nat}
    (hring : g.IsRing root length t) {e : ConvertError} (hfault : Fault c g root e) :
    e = .circular ↔ length ≤ c.maxDepth := by
  have htables : ∀ {tables : List Nat}, g.IsPath root tables →
      tables = (List.range tables.length).map t := by
    intro tables hpath
    rw [← hring.start] at hpath
    have heq := hring.eq_of_isPath hpath
    simpa using heq
  cases hfault with
  | @circular path id trail short again =>
    refine ⟨fun _ => ?_, fun _ => rfl⟩
    have heq := htables trail
    rw [List.length_append, List.length_reverse, List.length_singleton, List.range_succ,
      List.map_append, List.map_singleton] at heq
    obtain ⟨hpath, hid⟩ := List.append_inj' heq rfl
    obtain ⟨j, hj, hjid⟩ := List.mem_map.1 (hpath ▸ List.mem_reverse.2 again)
    rw [List.mem_range] at hj
    by_contra hlt
    have hdistinct := hring.distinct j (by omega) path.length (by omega)
      (hjid.trans (List.singleton_inj.1 hid))
    omega
  | @tooDeep path id trail distinct long =>
    refine ⟨fun h => (nomatch h), fun hle => ?_⟩
    have heq := htables trail
    have hnodup : (path.reverse ++ [id]).Nodup := by
      rw [← List.reverse_cons]
      exact List.nodup_reverse.2 distinct
    rw [heq, List.length_append, List.length_reverse, List.length_singleton, long] at hnodup
    have hinj := List.inj_on_of_nodup_map hnodup (List.mem_range.2 (Nat.succ_pos _))
      (List.mem_range.2 (Nat.lt_succ_of_le hle)) (by rw [← hring.round 0, Nat.zero_add])
    exact absurd hinj.symm (Nat.pos_iff_ne_zero.1 hring.pos)

/-- **The conversion of a graph of tables.**  It succeeds exactly if every path from the root visits
no more tables than the limit allows, and gives the tree unfolding of the graph then; the heap stays
as it is.  If it fails, a table is said to contain itself only where one that can be reached does,
and the limit is said to be exceeded only where that many different tables and one more follow each
other.  Around a ring, the first of the two is found exactly if the limit is no less than its
length. -/
theorem toValue_graph (hc : c.codecs = []) (hplain : PlainFrom (w.state s) root) :
    let out := (c.toValue s (.table root)).on w
    out.2.states = w.states
      ∧ ((∃ x, out.1 = .ok x)
        ↔ ∀ tables, (w.state s).IsPath root tables → tables.length ≤ c.maxDepth)
      ∧ (∀ x, out.1 = .ok x → Unfolds c s out.2 (.table root) x)
      ∧ (∀ e, out.1 = .error e → e = .circular ∨ e = .tooDeep c.maxDepth)
      ∧ (out.1 = .error .circular →
        ∃ id, (w.state s).Reaches root id ∧ (w.state s).OnCycle id)
      ∧ (out.1 = .error (.tooDeep c.maxDepth) →
        ∃ tables, (w.state s).IsPath root tables ∧ tables.Nodup
          ∧ tables.length = c.maxDepth + 1)
      ∧ ∀ length t, (w.state s).IsRing root length t →
        (out.1 = .error .circular ↔ length ≤ c.maxDepth) := by
  have hstart : ∀ id, GuestValue.table root = .table id → (w.state s).Trail root [] id := by
    intro id he
    rw [← GuestValue.table.inj he]
    exact GuestState.trail_nil _ root
  have hmeets := toValueAt_meets hc hplain c.maxDepth rfl List.nodup_nil (Nat.zero_add _) hstart
  intro out
  obtain ⟨hgrows, hout⟩ : (walk c s root (w.state s) c.maxDepth).Meets (.table root) w out := hmeets
  have hfits : (w.state s).Fits c.maxDepth (.table root)
      ↔ ∀ tables, (w.state s).IsPath root tables → tables.length ≤ c.maxDepth :=
    ⟨fun h => h root rfl, fun h id he => GuestValue.table.inj he ▸ h⟩
  have hok : ∀ x, out.1 = .ok x →
      Unfolds c s out.2 (.table root) x ∧ (w.state s).Fits c.maxDepth (.table root) := by
    intro x hx
    rw [hx] at hout
    exact hout
  have hfault : ∀ e, out.1 = .error e →
      Fault c (w.state s) root e ∧ ¬ (w.state s).Fits c.maxDepth (.table root) := by
    intro e he
    rw [he] at hout
    exact hout
  refine ⟨hgrows.states, ⟨fun ⟨x, hx⟩ => hfits.1 (hok x hx).2, fun h => ?_⟩,
    fun x hx => (hok x hx).1, fun e he => ?_, fun he => ?_, fun he => ?_, fun length t hring => ?_⟩
  · cases hr : out.1 with
    | ok x => exact ⟨x, rfl⟩
    | error e => exact absurd (hfits.2 h) (hfault e hr).2
  · cases (hfault e he).1 with
    | circular => exact .inl rfl
    | tooDeep => exact .inr rfl
  · cases (hfault _ he).1 with
    | circular trail _ again => exact ⟨_, trail.reaches, trail.onCycle again⟩
  · cases (hfault _ he).1 with
    | @tooDeep path id trail distinct long =>
      refine ⟨path.reverse ++ [id], trail, ?_, ?_⟩
      · rw [← List.reverse_cons]
        exact List.nodup_reverse.2 distinct
      · rw [List.length_append, List.length_reverse, List.length_singleton, long]
  · constructor
    · exact fun he => (circular_iff_of_isRing hring (hfault _ he).1).1 rfl
    · intro hle
      cases hr : out.1 with
      | ok x =>
        have hpath := hring.isPath c.maxDepth 0
        rw [hring.start] at hpath
        have hlong := hfits.1 (hok x hr).2 _ hpath
        rw [List.length_map, List.length_range] at hlong
        exact absurd hlong (Nat.not_succ_le_self _)
      | error e => rw [(circular_iff_of_isRing hring (hfault e hr).1).2 hle]

/-- A world with a table that contains itself under the name `self`. -/
def selfContained : World where
  states := #[{ tables := #[{ entries := [(.ofString "self", .table 0)] }] }]

theorem toValue_graph_selfContained : PlainFrom (selfContained.state 0) 0
    ∧ (selfContained.state 0).IsRing 0 1 (fun _ => 0)
    ∧ ((({} : Converter).toValue 0 (.table 0)).on selfContained).1 = .error .circular := by
  have hedge : ∀ b, (selfContained.state 0).Edge 0 b ↔ b = 0 := by
    intro b
    constructor
    · rintro ⟨key, hmem⟩
      exact GuestValue.table.inj (Prod.mk.inj (List.mem_singleton.1 hmem)).2
    · rintro rfl
      exact ⟨_, List.mem_cons_self⟩
  have hplain : PlainFrom (selfContained.state 0) 0 := by
    intro id hid
    obtain rfl : id = 0 := by
      induction hid with
      | refl => rfl
      | tail _ he ih =>
        rw [ih] at he
        exact (hedge _).1 he
    refine ⟨rfl, fun entry he => ?_, List.nodup_singleton _⟩
    rw [List.mem_singleton.1 he]
    exact ⟨_, rfl⟩
  have hring : (selfContained.state 0).IsRing 0 1 fun _ => 0 :=
    ⟨Nat.zero_lt_one, rfl, fun _ => rfl, fun i hi j hj _ => by omega, fun _ b => hedge b⟩
  have hgraph := toValue_graph (c := {}) rfl hplain
  exact ⟨hplain, hring, (hgraph.2.2.2.2.2.2 1 _ hring).2 (by decide)⟩

end Converter
end ScriptPool
