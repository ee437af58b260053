import ScriptPool.Guest.Value

/-!
# Tables

A table is a list of entries in the order in which they are enumerated, with at most one entry for a
key and none with the value `nil`, and possibly a metatable.  Everything here is raw access:
metamethods are the business of `ScriptPool.Guest.Machine`.

That the entries are as they should be is part of a table, so it need not be shown of what scripts
make of one.
-/

set_option autoImplicit false

namespace ScriptPool

/-- The entries that a table can have: their keys are normalised and differ, and none is `nil`. -/
structure GuestTable.IsKeyed (entries : List (GuestValue × GuestValue)) : Prop where
  keys : ∀ entry ∈ entries, entry.1.toKey? = some entry.1
  values : ∀ entry ∈ entries, entry.2.isNil = false
  distinct : entries.Pairwise fun a b => a.1.rawEqual b.1 = false

namespace GuestTable.IsKeyed

variable {entries : List (GuestValue × GuestValue)} {key value : GuestValue}

theorem nil : IsKeyed [] :=
  ⟨fun _ h => absurd h List.not_mem_nil, fun _ h => absurd h List.not_mem_nil, .nil⟩

theorem sublist {kept : List (GuestValue × GuestValue)} (h : IsKeyed entries)
    (hs : kept.Sublist entries) : IsKeyed kept :=
  ⟨fun e he => h.keys e (hs.subset he), fun e he => h.values e (hs.subset he), h.distinct.sublist hs⟩

/-- An entry with a key that is not there can be added. -/
theorem append (h : IsKeyed entries) (hkey : key.toKey? = some key) (hvalue : value.isNil = false)
    (hnew : ∀ entry ∈ entries, entry.1.rawEqual key = false) :
    IsKeyed (entries ++ [(key, value)]) := by
  refine ⟨fun e he => ?_, fun e he => ?_, List.pairwise_append.2
    ⟨h.distinct, List.pairwise_singleton _ _, fun e he e' he' => ?_⟩⟩
  · rcases List.mem_append.1 he with he | he
    · exact h.keys e he
    · rw [List.mem_singleton.1 he, hkey]
  · rcases List.mem_append.1 he with he | he
    · exact h.values e he
    · rw [List.mem_singleton.1 he, hvalue]
  · rw [List.mem_singleton.1 he']
    exact hnew e he

theorem singleton (hkey : key.toKey? = some key) (hvalue : value.isNil = false) :
    IsKeyed [(key, value)] :=
  nil.append hkey hvalue fun _ h => absurd h List.not_mem_nil

/-- Entries can get other values. -/
theorem map {f : GuestValue × GuestValue → GuestValue × GuestValue} (h : IsKeyed entries)
    (hkey : ∀ entry, (f entry).1 = entry.1)
    (hvalue : ∀ entry, entry.2.isNil = false → (f entry).2.isNil = false) :
    IsKeyed (entries.map f) := by
  refine ⟨fun e he => ?_, fun e he => ?_, List.pairwise_map.2 (h.distinct.imp fun hab => ?_)⟩
  · obtain ⟨entry, hentry, rfl⟩ := List.mem_map.1 he
    rw [hkey, h.keys entry hentry]
  · obtain ⟨entry, hentry, rfl⟩ := List.mem_map.1 he
    exact hvalue entry (h.values entry hentry)
  · rwa [hkey, hkey]

end GuestTable.IsKeyed

/-- A table. -/
structure GuestTable where
  entries : List (GuestValue × GuestValue) := []
  metatable : Option Nat := none
  keyed : GuestTable.IsKeyed entries := by first | exact .nil | exact .singleton rfl rfl

instance : Inhabited GuestTable := ⟨{}⟩

namespace GuestTable

/-- The value under a key that has been normalised. -/
def find (t : GuestTable) (key : GuestValue) : GuestValue :=
  match t.entries.find? fun entry => entry.1.rawEqual key with
  | some entry => entry.2
  | none => .nil

/-- The value under a key. -/
def get (t : GuestTable) (key : GuestValue) : GuestValue :=
  match key.toKey? with
  | some key => t.find key
  | none => .nil

/-- The value under a string key. -/
def field (t : GuestTable) (name : String) : GuestValue := t.find (.ofString name)

/-- The entries without a key. -/
def entriesWithout (t : GuestTable) (key : GuestValue) : List (GuestValue × GuestValue) :=
  t.entries.filter fun entry => !entry.1.rawEqual key

/-- Is there an entry under a key that has been normalised? -/
def has (t : GuestTable) (key : GuestValue) : Bool := t.entries.any fun entry => entry.1.rawEqual key

/-- Gives an entry another value. -/
def replace (t : GuestTable) (key value : GuestValue) (hvalue : value.isNil = false) : GuestTable where
  entries := t.entries.map fun entry => if entry.1.rawEqual key then (entry.1, value) else entry
  metatable := t.metatable
  keyed := t.keyed.map (fun entry => by split <;> rfl) fun entry h => by
    split
    · exact hvalue
    · exact h

/-- Puts a value under a key that has been normalised.  `nil` removes the entry; a present key keeps
its place, a new one goes to the end. -/
def store (t : GuestTable) (key value : GuestValue) (hkey : key.toKey? = some key) : GuestTable :=
  if hvalue : value.isNil then
    { t with entries := t.entriesWithout key, keyed := t.keyed.sublist List.filter_sublist }
  else if hnew : t.has key then t.replace key value (Bool.eq_false_iff.2 hvalue)
  else
    { t with
      entries := t.entries ++ [(key, value)]
      keyed := t.keyed.append hkey (Bool.eq_false_iff.2 hvalue) fun entry he =>
        Bool.eq_false_iff.2 fun heq => hnew (List.any_eq_true.2 ⟨entry, he, heq⟩) }

/-- Puts a value under a key, unless the key is `nil` or not a number. -/
def set (t : GuestTable) (key value : GuestValue) : GuestTable :=
  match hkey : key.toKey? with
  | some key => t.store key value (GuestValue.toKey?_of_toKey? hkey)
  | none => t

/-- Puts values under keys, one after the other. -/
def add (t : GuestTable) (entries : List (GuestValue × GuestValue)) : GuestTable :=
  entries.foldl (fun t entry => t.set entry.1 entry.2) t

/-- Values under the indices from one on; `nil`s leave holes. -/
def indexed (i : Nat) : List GuestValue → List (GuestValue × GuestValue)
  | [] => []
  | .nil :: rest => indexed (i + 1) rest
  | v :: rest => (.ofInt i, v) :: indexed (i + 1) rest

/-- How many indices there are. -/
def indices : Nat := 2 ^ 63 - 1

theorem index_of_mem_indexed {values : List GuestValue} : ∀ {i : Nat} {entry : GuestValue × GuestValue},
    entry ∈ indexed i values →
      ∃ j, i ≤ j ∧ j < i + values.length ∧ entry.1 = .ofInt (j : Nat) ∧ entry.2.isNil = false := by
  induction values with
  | nil => exact fun h => absurd h List.not_mem_nil
  | cons v rest ih =>
    intro i entry h
    have hrest : entry ∈ indexed (i + 1) rest →
        ∃ j, i ≤ j ∧ j < i + (v :: rest).length ∧ entry.1 = .ofInt (j : Nat)
          ∧ entry.2.isNil = false := by
      intro h
      obtain ⟨j, hi, hj, hentry⟩ := ih h
      exact ⟨j, by omega, by rw [List.length_cons]; omega, hentry⟩
    cases v with
    | nil => exact hrest h
    | _ =>
      rcases List.mem_cons.1 h with rfl | h
      · exact ⟨i, Nat.le_refl i, by rw [List.length_cons]; omega, rfl, rfl⟩
      · exact hrest h

theorem keyed_indexed {values : List GuestValue} : ∀ {i : Nat}, i + values.length ≤ 2 ^ 63 →
    IsKeyed (indexed i values) := by
  intro i hlen
  refine ⟨fun entry he => ?_, fun entry he => ?_, ?_⟩
  · obtain ⟨j, -, -, hkey, -⟩ := index_of_mem_indexed he
    rw [hkey]
    rfl
  · obtain ⟨j, -, -, -, hvalue⟩ := index_of_mem_indexed he
    exact hvalue
  · induction values generalizing i with
    | nil => exact .nil
    | cons v rest ih =>
      have hrest := @ih (i + 1) (by rw [List.length_cons] at hlen; omega)
      have hcons : ((GuestValue.ofInt i, v) :: indexed (i + 1) rest).Pairwise
          fun a b => a.1.rawEqual b.1 = false := by
        refine List.pairwise_cons.2 ⟨fun entry he => ?_, hrest⟩
        obtain ⟨j, hi, hj, hkey, -⟩ := index_of_mem_indexed he
        rw [List.length_cons] at hlen
        rw [hkey]
        refine beq_eq_false_iff_ne.2 fun heq => ?_
        have hint := congrArg Int64.toInt heq
        rw [Int64.toInt_ofInt_of_le (by omega) (by omega),
          Int64.toInt_ofInt_of_le (by omega) (by omega)] at hint
        omega
      cases v with
      | nil => exact hrest
      | _ => exact hcons

/-- The sequence `1, …, n` of the given values, of which there can be no more than indices; `nil`s
leave holes. -/
def ofSequence (values : List GuestValue) : GuestTable where
  entries := indexed 1 (values.take indices)
  keyed := keyed_indexed (by rw [List.length_take, indices]; omega)

/-- A table with string keys; `nil`s are left out. -/
def ofFields (fields : List (String × GuestValue)) : GuestTable :=
  add {} ((fields.filter fun field => !field.2.isNil).map fun field => (.ofString field.1, field.2))

end GuestTable
end ScriptPool
