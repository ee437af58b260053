import ScriptPool.Proofs.Convert.Owners

/-!
# Conversions with codecs

A codec may do to a guest state what it likes, so what it has built, and what conversions have built
beside it, is only there later on if all codecs see to it.  To say so, a `Course` keeps account of
what was made: next to the guest state it has a list of the values that conversions and codecs have
made in it, each with its maker.  The account is not part of the program; it is what the laws for
codecs are stated in.  They are stated for all courses that begin in a guest state with nothing made
yet:

* a codec claims what it has made, and gives back the payload it was made from (`Lawful`);
* no codec claims what another codec or the conversion of an aggregate has made (`Disjoint`);
* what conversions have made stays as it is (`Undisturbed`).

## What is here

* `Maker`, `Course`, `Course.Step`, `Course.Leads` — courses, and how they go on.
* `Lawful`, `Disjoint`, `Undisturbed` — the laws.
* `on_offer_claimed`, `on_offer_declined` — **what comes of offering a value to the codecs**.
* `undisturbed_of_additive` — codecs that only add to the heap leave everything as it is.
-/

set_option autoImplicit false

namespace ScriptPool

open Relation

/-- What has made a value of the guest. -/
inductive Maker where
  /-- The conversion of an aggregate, which has become this table. -/
  | aggregate (t : GuestTable)
  /-- The conversion of a value that has no form of its own. -/
  | carrier (v : Value)
  /-- The codec of a tag, from a payload. -/
  | codec (tag : String) (payload : Payload)

/-- A guest state in the course of conversions, and what they have made in it so far. -/
structure Course where
  heap : GuestState
  made : List (GuestValue × Maker) := []

/-- The tables that aggregates become. -/
inductive GuestState.Structural (g : GuestState) : GuestTable → Prop where
  | sequence (values : List GuestValue) : g.Structural (.ofSequence values)
  | fields (pairs : List (String × GuestValue)) : g.Structural (.ofFields pairs)
  | marked {m : Nat} (h : g.arrayMarker = some m) : g.Structural { metatable := some m }

namespace Course

/-- Something is made in a guest state.  `find` tells the codec of a tag. -/
inductive Step (find : String → Option Codec) (p : Course) : Course → Prop where
  | table {t : GuestTable} (h : p.heap.Structural t) :
      Step find p ⟨(p.heap.newTable t).2, (.table (p.heap.newTable t).1, .aggregate t) :: p.made⟩
  | marker : Step find p ⟨p.heap.arrayMarkerTable.2, p.made⟩
  | function (f : Closure) : Step find p ⟨(p.heap.newFunction f).2, p.made⟩
  | carry (v : Value) : Step find p ⟨(p.heap.newUserdata (.carrier v)).2,
      ((p.heap.newUserdata (.carrier v)).1, .carrier v) :: p.made⟩
  | encode {k : Custom} {codec : Codec} {v : GuestValue} {g : GuestState}
      (h : find k.tag = some codec) (run : codec.encode k p.heap = (.ok v, g)) :
      Step find p ⟨g, (v, .codec k.tag k.payload) :: p.made⟩

/-- Things are made one after the other. -/
abbrev Leads (find : String → Option Codec) : Course → Course → Prop := ReflTransGen (Step find)

variable {find : String → Option Codec} {p q : Course}

/-- What was made stays on the account. -/
theorem Leads.made (h : Leads find p q) : ∀ entry ∈ p.made, entry ∈ q.made := by
  induction h with
  | refl => exact fun _ h => h
  | tail _ hstep ih =>
    intro entry hentry
    cases hstep with
    | table => exact List.mem_cons_of_mem _ (ih entry hentry)
    | marker => exact ih entry hentry
    | function => exact ih entry hentry
    | carry => exact List.mem_cons_of_mem _ (ih entry hentry)
    | encode => exact List.mem_cons_of_mem _ (ih entry hentry)

/-- References to tables stay good. -/
theorem Leads.size (h : Leads find p q) : p.heap.tables.size ≤ q.heap.tables.size := by
  induction h with
  | refl => exact Nat.le_refl _
  | @tail q _ _ hstep ih =>
    refine ih.trans ?_
    cases hstep with
    | table => exact (GuestState.extends_newTable _ _).size
    | marker => exact (GuestState.extends_arrayMarkerTable _).size
    | function => exact Nat.le_refl _
    | carry => exact Nat.le_refl _
    | @encode k codec _ _ _ run =>
      have hsize := (codec.leadsTo k q.heap).tables
      rwa [run] at hsize

/-- Nothing of the heap changes if the codecs only add to it. -/
theorem Leads.extends (hadd : ∀ tag codec, find tag = some codec → codec.IsAdditive)
    (h : Leads find p q) : p.heap.Extends q.heap := by
  induction h with
  | refl => exact .refl _
  | @tail q _ _ hstep ih =>
    refine ih.trans ?_
    cases hstep with
    | table => exact GuestState.extends_newTable _ _
    | marker => exact GuestState.extends_arrayMarkerTable _
    | function => exact GuestState.extends_newFunction _ _
    | carry => exact GuestState.extends_newUserdata _ _
    | @encode k codec _ _ h run =>
      have hextends := hadd _ _ h k q.heap
      rwa [run] at hextends

/-- What conversions have made is in the heap as they made it: tables, the metatables that mark
empty arrays, and userdata. -/
structure Intact (p : Course) : Prop where
  tables : ∀ id t, (.table id, Maker.aggregate t) ∈ p.made → p.heap.tables[id]? = some t
  markers : ∀ v t m, (v, Maker.aggregate t) ∈ p.made → t.metatable = some m → p.heap.IsMarker m
  carriers : ∀ id v, (.object (.userdata id), Maker.carrier v) ∈ p.made →
    p.heap.userdata[id]? = some (.carrier v)

end Course

/-- A codec does not replace the metatable that marks empty arrays. -/
def Codec.SparesMarker (codec : Codec) : Prop :=
  ∀ (k : Custom) (g : GuestState), (codec.encode k g).2.arrayMarker = g.arrayMarker

/-- A codec claims a table or foreign userdata, and gives this payload for it. -/
def Codec.Claims (codec : Codec) (g : GuestState) (v : GuestValue) (payload : Payload) : Prop :=
  codec.decode g v = .ok (some payload) ∧ ((∃ id, v = .table id)
    ∨ ∃ id, v = .object (.userdata id) ∧ g.carried? (.userdata id) = none)

namespace Converter

/-! ## Laws

The laws are about what may come about, and not about one moment: a codec that gives back what it
has made must still do so when other conversions have gone on working in the same heap. -/

section Laws

variable (c : Converter) (codecs : Array Codec) (g : GuestState)

/-- A course that may come about by conversions that begin in a guest state. -/
def Possible (p : Course) : Prop := Course.Leads (c.codecFor codecs) ⟨g, []⟩ p

/-- A codec claims what it has made, and gives back the payload it was made from, whatever else has
been made since.  Only tables and foreign userdata are offered to codecs, so that is what it makes.
-/
def Lawful : Prop := ∀ p, c.Possible codecs g p → ∀ v tag payload codec,
  (v, Maker.codec tag payload) ∈ p.made → c.codecFor codecs tag = some codec →
    codec.Claims p.heap v payload

/-- All codecs but those of one tag leave a value alone. -/
def DeclinedBut (tag : Option String) (g : GuestState) (v : GuestValue) : Prop :=
  ∀ entry ∈ c.codecs, some entry.1 ≠ tag → ∀ codec, codecs[entry.2]? = some codec →
    codec.decode g v = .ok none

/-- No codec claims what another one has made, nor the table that an aggregate has become. -/
structure Disjoint : Prop where
  encoded : ∀ p, c.Possible codecs g p → ∀ v tag payload,
    (v, Maker.codec tag payload) ∈ p.made → c.DeclinedBut codecs (some tag) p.heap v
  structural : ∀ p, c.Possible codecs g p → ∀ v t,
    (v, Maker.aggregate t) ∈ p.made → c.DeclinedBut codecs none p.heap v

/-- What conversions have made stays as it is.  A codec that builds the guest form of a value has no
business with the tables of others, but nothing keeps it from them. -/
def Undisturbed : Prop := ∀ p, c.Possible codecs g p → p.Intact

end Laws

variable {c : Converter} {codecs : Array Codec} {s : Nat} {w : World} {g : GuestState}
  {v : GuestValue} {tag : String} {codec : Codec} {payload : Payload}

/-! ## Offering values to codecs -/

/-- **What all codecs leave alone is claimed by none.** -/
theorem on_offer_declined {offered : List (String × Nat)}
    (h : ∀ entry ∈ offered, ∀ codec, w.codecs[entry.2]? = some codec →
      codec.decode (w.state s) v = .ok none) : (offer s v offered).on w = (.ok none, w) := by
  induction offered with
  | nil => rfl
  | cons entry rest ih =>
    have ih := ih fun other hother => h other (List.mem_cons_of_mem entry hother)
    obtain ⟨tag, i⟩ := entry
    rw [offer, Conversion.on_get_bind]
    cases hi : w.codecs[i]? with
    | none => exact ih
    | some codec =>
      have hdecode := h (tag, i) List.mem_cons_self codec hi
      dsimp only
      rw [hdecode]
      exact ih

/-- **What a codec claims and all others leave alone is claimed by it**, wherever in the order it
comes. -/
theorem on_offer_claimed {offered : List (String × Nat)}
    (hcodec : ((offered.find? fun entry => entry.1 == tag).map (·.2)).bind (w.codecs[·]?)
      = some codec)
    (hclaims : codec.decode (w.state s) v = .ok (some payload))
    (h : ∀ entry ∈ offered, some entry.1 ≠ some tag → ∀ codec, w.codecs[entry.2]? = some codec →
      codec.decode (w.state s) v = .ok none) :
    (offer s v offered).on w = (.ok (some (tag, payload)), w) := by
  induction offered with
  | nil => cases hcodec
  | cons entry rest ih =>
    obtain ⟨other, i⟩ := entry
    rw [offer, Conversion.on_get_bind]
    by_cases htag : other = tag
    · subst htag
      rw [List.find?_cons, beq_self_eq_true] at hcodec
      have hi : w.codecs[i]? = some codec := hcodec
      rw [hi]
      dsimp only
      rw [hclaims]
      rfl
    · rw [List.find?_cons, beq_eq_false_iff_ne.2 htag] at hcodec
      have ih := ih hcodec fun entry hentry => h entry (List.mem_cons_of_mem _ hentry)
      cases hi : w.codecs[i]? with
      | none => exact ih
      | some codec' =>
        have hdecode := h (other, i) List.mem_cons_self (fun heq => htag (Option.some.inj heq))
          codec' hi
        dsimp only
        rw [hdecode]
        exact ih

/-! ## Codecs that only add to the heap

The last of the laws need not be asked of codecs that are well behaved.  What has been made is in
the heap, and nothing can happen to it where everybody only adds to that. -/

/-- If the table of an aggregate has a metatable, that is the one that marks empty arrays. -/
theorem arrayMarker_of_structural {t : GuestTable} {m : Nat} (ht : g.Structural t)
    (hm : t.metatable = some m) : g.arrayMarker = some m := by
  cases ht with
  | sequence values => cases hm
  | fields pairs =>
    rw [GuestTable.ofFields, GuestTable.add_metatable] at hm
    cases hm
  | marked h => rwa [← Option.some.inj hm]

/-- A course goes on with something new on the account, and nothing else changes. -/
theorem intact_cons {p : Course} {g' : GuestState} {maker : Maker} (h : p.Intact)
    (hg : p.heap.Extends g') (htable : ∀ id t, v = .table id → maker = .aggregate t →
      g'.tables[id]? = some t)
    (hmarker : ∀ t m, maker = .aggregate t → t.metatable = some m → g'.IsMarker m)
    (hcarrier : ∀ id x, v = .object (.userdata id) → maker = .carrier x →
      g'.userdata[id]? = some (.carrier x)) : Course.Intact ⟨g', (v, maker) :: p.made⟩ := by
  refine ⟨fun id t hmem => ?_, fun u t m hmem hm => ?_, fun id x hmem => ?_⟩
  · rcases List.mem_cons.1 hmem with heq | hmem
    · obtain ⟨hv, hmaker⟩ := Prod.mk.inj heq
      exact htable id t hv.symm hmaker.symm
    · exact hg.tables (h.tables id t hmem)
  · rcases List.mem_cons.1 hmem with heq | hmem
    · exact hmarker t m (Prod.mk.inj heq).2.symm hm
    · exact (h.markers u t m hmem hm).mono hg
  · rcases List.mem_cons.1 hmem with heq | hmem
    · obtain ⟨hv, hmaker⟩ := Prod.mk.inj heq
      exact hcarrier id x hv.symm hmaker.symm
    · exact hg.userdata (h.carriers id x hmem)

theorem intact_grow {p : Course} {g' : GuestState} (h : p.Intact) (hg : p.heap.Extends g') :
    Course.Intact ⟨g', p.made⟩ :=
  ⟨fun id t hmem => hg.tables (h.tables id t hmem),
    fun u t m hmem hm => (h.markers u t m hmem hm).mono hg,
    fun id x hmem => hg.userdata (h.carriers id x hmem)⟩

/-- **Codecs that only add to the heap leave everything as it is**, if empty arrays can be marked to
begin with. -/
theorem undisturbed_of_additive (hg : g.MarksArrays)
    (hcodecs : ∀ tag codec, c.codecFor codecs tag = some codec →
      codec.IsAdditive ∧ codec.SparesMarker) : c.Undisturbed codecs g := by
  intro p hp
  suffices hall : p.heap.MarksArrays ∧ p.Intact from hall.2
  induction hp with
  | refl =>
    exact ⟨hg, fun _ _ h => absurd h List.not_mem_nil, fun _ _ _ h => absurd h List.not_mem_nil,
      fun _ _ h => absurd h List.not_mem_nil⟩
  | @tail p _ _ hstep ih =>
    obtain ⟨hmarks, hintact⟩ := ih
    cases hstep with
    | @table t ht =>
      have hnew := GuestState.extends_newTable p.heap t
      refine ⟨hmarks.mono hnew rfl, intact_cons hintact hnew (fun id t' hv hmaker => ?_)
        (fun t' m hmaker hm => ?_) fun _ _ hv => by cases hv⟩
      · cases hv
        cases hmaker
        exact GuestState.getElem?_newTable p.heap t
      · cases hmaker
        exact (hmarks _ (arrayMarker_of_structural ht hm)).mono hnew
    | marker =>
      obtain ⟨hnew, hmarks', -⟩ := GuestState.arrayMarkerTable_spec hmarks
      exact ⟨hmarks', intact_grow hintact hnew⟩
    | function f =>
      have hnew := GuestState.extends_newFunction p.heap f
      exact ⟨hmarks.mono hnew rfl, intact_grow hintact hnew⟩
    | carry x =>
      have hnew := GuestState.extends_newUserdata p.heap (.carrier x)
      refine ⟨hmarks.mono hnew rfl, intact_cons hintact hnew (fun _ _ hv => by cases hv)
        (fun _ _ hmaker => by cases hmaker) fun id x' hv hmaker => ?_⟩
      cases hv
      cases hmaker
      exact Array.getElem?_push_size
    | @encode k codec r g' h run =>
      obtain ⟨hadd, hspares⟩ := hcodecs _ _ h
      have hnew := hadd k p.heap
      have hmarker := hspares k p.heap
      rw [run] at hnew hmarker
      exact ⟨hmarks.mono hnew hmarker, intact_cons hintact hnew (fun _ _ _ hmaker => by cases hmaker)
        (fun _ _ hmaker => by cases hmaker) fun _ _ _ hmaker => by cases hmaker⟩

end Converter
end ScriptPool
