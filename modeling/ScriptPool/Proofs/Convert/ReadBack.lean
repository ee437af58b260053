import ScriptPool.Proofs.Convert.Entries
import ScriptPool.Proofs.Guest.Heap
import ScriptPool.Proofs.Value.Norm

/-!
# Reading tables back

The two kinds of tables that aggregates become are read back here, given what the values in them are
read back as.  A sequence comes back as `Value.ofItems` says: the places of its values decide what
it is.  A table of fields comes back as an object, without the fields that are `nil`.

`entriesToValue_reads` reduces this to the keys: whatever can be put together from the entries of a
table is what the conversion gives.
-/

set_option autoImplicit false

namespace ScriptPool
namespace Converter

variable {convert : GuestValue → Conversion Value} {w : World}
  {entries : List (GuestValue × GuestValue)}

/-- A conversion reads a value as another, and leaves the world as it is. -/
def Reads (convert : GuestValue → Conversion Value) (w : World) (v : GuestValue) (x : Value) : Prop :=
  (convert v).on w = (.ok x, w)

theorem Reads.unique {v : GuestValue} {x y : Value} (hx : Reads convert w v x)
    (hy : Reads convert w v y) : x = y :=
  Except.ok.inj (Prod.mk.inj (hx.symm.trans hy)).1

/-- Conversions that only read. -/
def reading (convert : GuestValue → Conversion Value) : Behaviour where
  Grows w w' := w' = w
  Shows w v x := Reads convert w v x
  Fails _ _ := False
  refl _ := rfl
  trans h h' := h'.trans h
  mono h hv := h ▸ hv

/-- A table is read as what can be put together from its entries. -/
theorem entriesToValue_reads {x : Value} (hvalues : ∀ entry ∈ entries, ∃ y, Reads convert w entry.2 y)
    (hnames : HasNames entries) (hx : Assembled (Reads convert w) entries x) :
    (entriesToValue convert entries).on w = (.ok x, w) := by
  have hmeets : (reading convert).MeetsAll convert entries w := by
    rintro entry he w' rfl
    obtain ⟨y, hy⟩ := hvalues entry he
    rw [hy]
    exact ⟨rfl, hy⟩
  obtain ⟨hw, hout⟩ := entriesToValue_meets hmeets hnames
  cases hr : (entriesToValue convert entries).on w with
  | mk r w' =>
    rw [hr] at hw hout
    obtain rfl : w' = w := hw
    cases r with
    | error e =>
      obtain ⟨entry, -, hfails⟩ := hout
      exact hfails.elim
    | ok y =>
      have hy : Assembled (Reads convert w') entries y := hout
      rw [Assembled.unique (fun _ _ _ ha hb => ha.unique hb) hy hx]

/-! ## Sequences

The values that are `nil` have left no entries, so what is left to read has gaps in its keys, or
none, and that decides whether it is read as an array. -/

/-- The elements of an array and the values of the guest that are read as them. -/
def ReadAs (convert : GuestValue → Conversion Value) (w : World) (x : Value) (v : GuestValue) : Prop :=
  v.isNil = x.isNil ∧ Reads convert w v x

variable {items : List Value} {values : List GuestValue}

/-- The elements that are there, and the values that are read as them, by their places. -/
theorem present_readAs (h : List.Forall₂ (ReadAs convert w) items values) :
    List.Forall₂ (fun place other => other.1 = place.1 ∧ ReadAs convert w place.2 other.2)
      (present Value.isNil 0 items) (present GuestValue.isNil 0 values) :=
  present_forall₂ (fun _ _ hr => hr.1) h 0

/-- The keys of a sequence, and the names that they would be, tell its places. -/
theorem keys_ofSequence (short : values.length < 2 ^ 63) :
    (GuestTable.ofSequence values).entries.map (·.1.keyKind)
        = ((present GuestValue.isNil 0 values).map (·.1)).map Shape.keyOf
      ∧ (GuestTable.ofSequence values).entries.map (·.1.fieldName)
        = ((present GuestValue.isNil 0 values).map (·.1)).map
          fun place => .ok (toString (place + 1)) := by
  have hlt : ∀ place ∈ present GuestValue.isNil 0 values, place.1 + 1 < 2 ^ 63 := by
    intro place hp
    have hb := ((present_places values 0).2 place hp).2
    omega
  rw [GuestTable.entries_ofSequence short, List.map_map, List.map_map, List.map_map, List.map_map]
  exact ⟨List.map_congr_left fun place hp => GuestValue.keyKind_ofInt (hlt place hp),
    List.map_congr_left fun place hp => GuestValue.fieldName_ofInt (hlt place hp)⟩

theorem hasNames_ofSequence (short : values.length < 2 ^ 63) :
    HasNames (GuestTable.ofSequence values).entries := by
  refine ⟨fun entry he => ?_, ?_⟩
  · rw [GuestTable.entries_ofSequence short] at he
    obtain ⟨place, -, rfl⟩ := List.mem_map.1 he
    exact ⟨_, rfl⟩
  · rw [(keys_ofSequence short).2]
    refine List.Nodup.map (fun a b hab => ?_) ((present_places values 0).1.imp Nat.ne_of_lt)
    exact Nat.succ.inj (GuestValue.toString_injective (Except.ok.inj hab))

/-- The places are all of `1, …, n` exactly if they are these numbers in order. -/
theorem places_perm_iff {places : List Nat} (hsorted : places.Pairwise (· < ·)) {n : Nat} :
    (places.map Shape.keyOf).Perm (Shape.indices n) ↔ places = List.range n := by
  rw [Shape.indices, List.map_perm_map_iff Shape.keyOf_injective]
  constructor
  · intro h
    exact h.eq_of_pairwise (fun a b _ _ hab hba => absurd hab (Nat.lt_asymm hba)) hsorted
      List.pairwise_lt_range
  · rintro rfl
    exact List.Perm.refl _

/-- **A sequence is read as what the places of its values make of it.** -/
theorem assembled_ofSequence (hne : items ≠ []) (short : values.length < 2 ^ 63)
    (h : List.Forall₂ (ReadAs convert w) items values) :
    Assembled (Reads convert w) (GuestTable.ofSequence values).entries (Value.ofItems items) := by
  have hpresent := present_readAs h
  have hplaces : (present GuestValue.isNil 0 values).map (·.1)
      = (present Value.isNil 0 items).map (·.1) :=
    (map_eq_map_of_forall₂ (fun _ _ hr => hr.1.symm) hpresent).symm
  obtain ⟨hkeys, -⟩ := keys_ofSequence short
  rw [hplaces] at hkeys
  have hsorted : ((present Value.isNil 0 items).map (·.1)).Pairwise (· < ·) :=
    (present_places items 0).1
  by_cases hl : Value.Leading items
  · obtain ⟨hsome, hrange⟩ := hl.resolve_left hne
    rw [Value.ofItems_of_leading hl]
    refine ⟨⟨?_, ?_⟩, fun entry he place hkey => ?_⟩
    · rw [List.length_map]
      exact List.length_pos_iff.2 hsome
    · rw [hkeys, List.length_map]
      exact (places_perm_iff hsorted).2 hrange
    · rw [GuestTable.entries_ofSequence short] at he
      obtain ⟨other, ho, rfl⟩ := List.mem_map.1 he
      obtain ⟨found, hf, hplace, -, hreads⟩ := exists_of_forall₂ hpresent.flip ho
      have hlt := ((present_places values 0).2 other ho).2
      obtain rfl : other.1 = place :=
        Shape.keyOf_injective ((GuestValue.keyKind_ofInt (by omega)).symm.trans hkey)
      -- an element is where its place says, since the places count up from zero
      obtain ⟨i, hi⟩ := List.mem_iff_getElem?.1 hf
      have hrange' : (List.range (present Value.isNil 0 items).length)[i]? = some found.1 := by
        rw [← hrange, List.getElem?_map, hi]
        rfl
      obtain ⟨hlen, hi'⟩ := List.getElem?_eq_some_iff.1 hrange'
      rw [List.getElem_range] at hi'
      refine ⟨found.2, ?_, hreads⟩
      rw [hplace, ← hi', List.getElem?_map, hi]
      rfl
  · rw [Value.ofItems_of_not_leading hl]
    refine assembled_object (B := reading convert) (fun n hn hperm => hl (.inr ?_))
      (hasNames_ofSequence short) ?_
    · rw [hkeys, places_perm_iff hsorted] at hperm
      have hlen : (present Value.isNil 0 items).length = n := by
        rw [← List.length_map (f := (·.1)), hperm, List.length_range]
      refine ⟨List.ne_nil_of_length_pos (hlen ▸ hn), ?_⟩
      rw [hperm, hlen]
    · rw [GuestTable.entries_ofSequence short, List.forall₂_map_left_iff, List.forall₂_map_right_iff]
      -- the places of all values are within bounds, which `Forall₂` does not remember
      have hlt : ∀ other ∈ present GuestValue.isNil 0 values, other.1 + 1 < 2 ^ 63 := by
        intro other ho
        have hb := ((present_places values 0).2 other ho).2
        omega
      refine ((List.forall₂_and_left _ _).2 ⟨hlt, hpresent.flip⟩).imp ?_
      rintro other found ⟨hb, hplace, -, hreads⟩
      refine ⟨?_, hreads⟩
      rw [← hplace]
      exact GuestValue.fieldName_ofInt hb

/-! ## Tables of fields -/

variable {fields : Fields} {pairs : List (String × GuestValue)}

/-- Names in order differ. -/
theorem nodup_names {β : Type} {pairs : List (String × β)}
    (sorted : pairs.Pairwise fun a b => a.1 < b.1) : (pairs.map (·.1)).Nodup := by
  refine List.pairwise_map.2 (sorted.imp fun {a b} hlt heq => ?_)
  rw [heq] at hlt
  exact String.lt_irrefl _ hlt

/-- The names of fields are the names of their keys. -/
theorem keys_ofFields (names : (pairs.map (·.1)).Nodup) {entry : GuestValue × GuestValue}
    (h : entry ∈ (GuestTable.ofFields pairs).entries) :
    ∃ pair ∈ pairs, entry = (.ofString pair.1, pair.2) := by
  rw [GuestTable.entries_ofFields names] at h
  obtain ⟨pair, hp, rfl⟩ := List.mem_map.1 h
  exact ⟨pair, (List.mem_filter.1 hp).1, rfl⟩

theorem hasNames_ofFields (sorted : pairs.Pairwise fun a b => a.1 < b.1) :
    HasNames (GuestTable.ofFields pairs).entries := by
  refine ⟨fun entry he => ?_, ?_⟩
  · obtain ⟨pair, -, rfl⟩ := keys_ofFields (nodup_names sorted) he
    exact ⟨pair.1, GuestValue.fieldName_ofString pair.1⟩
  · rw [GuestTable.entries_ofFields (nodup_names sorted), List.map_map]
    refine List.pairwise_map.2 ((sorted.filter _).imp fun {a b} hlt he => ?_)
    have hname : a.1 = b.1 := Except.ok.inj ((GuestValue.fieldName_ofString a.1).symm.trans
      (he.trans (GuestValue.fieldName_ofString b.1)))
    rw [hname] at hlt
    exact String.lt_irrefl _ hlt

/-- **A table of fields is read as an object with those that are not `nil`.** -/
theorem assembled_ofFields (sorted : fields.Sorted)
    (hnames : HasNames (GuestTable.ofFields pairs).entries)
    (h : List.Forall₂ (fun field pair => pair.1 = field.1 ∧ ReadAs convert w field.2 pair.2)
      fields pairs) :
    Assembled (Reads convert w) (GuestTable.ofFields pairs).entries
      (.object (fields.filter fun field => !field.2.isNil)) := by
  have hnodup : (pairs.map (·.1)).Nodup := by
    rw [← map_eq_map_of_forall₂ (fun _ _ hr => hr.1.symm) h]
    exact nodup_names sorted
  have hkept := List.rel_filter (p := fun field => !field.2.isNil)
    (q := fun pair : String × GuestValue => !pair.2.isNil)
    (fun field pair hr => by dsimp only; rw [hr.2.1]) h
  have hnamed : List.Forall₂ (Named (reading convert) w) (GuestTable.ofFields pairs).entries
      (fields.filter fun field => !field.2.isNil) := by
    rw [GuestTable.entries_ofFields hnodup, List.forall₂_map_left_iff]
    refine hkept.flip.imp ?_
    rintro pair field ⟨hname, -, hreads⟩
    exact ⟨by rw [GuestValue.fieldName_ofString, hname], hreads⟩
  rw [← Fields.ofList_of_sorted (sorted.filter _)]
  refine assembled_object (B := reading convert) (fun n hn hperm => ?_) hnames hnamed
  have hfirst : Shape.keyOf 0 ∈ (GuestTable.ofFields pairs).entries.map (·.1.keyKind) :=
    hperm.mem_iff.2 (List.mem_map_of_mem (List.mem_range.2 hn))
  obtain ⟨entry, he, hkey⟩ := List.mem_map.1 hfirst
  obtain ⟨pair, -, rfl⟩ := keys_ofFields hnodup he
  cases hkey

end Converter
end ScriptPool
