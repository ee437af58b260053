import ScriptPool.Proofs.Guest.Heap

/-!
# From table to table

What can be reached from a value of the guest is found by going from one table to the next, under a
key or to the metatable.

## What is here

* `GuestState.hop?`, `GuestState.follow?` — where such a step leads, and what is at the end of a
  path of them, without metamethods.
* `Extends.follow?` — a path leads to the same value in every heap that has grown out of this one.
* `get_ofSequence`, `get_ofFields` — where the values are in the tables that they become.
-/

set_option autoImplicit false

namespace ScriptPool

/-- One step of a path through tables. -/
inductive Hop where
  /-- To the value under a key. -/
  | key (k : GuestValue)
  /-- To the metatable. -/
  | metatable

namespace GuestState

/-- Where one step leads, from a table.  There may be no metatable to go to. -/
def hop? (g : GuestState) : GuestValue → Hop → Option GuestValue
  | .table id, .key k => g.tables[id]?.map fun t => t.get k
  | .table id, .metatable => (g.tables[id]?.bind GuestTable.metatable).map .table
  | _, _ => none

/-- What is at the end of a path, if every step leads somewhere. -/
def follow? (g : GuestState) : GuestValue → List Hop → Option GuestValue
  | v, [] => some v
  | v, hop :: rest => (g.hop? v hop).bind fun v => g.follow? v rest

variable {g g' : GuestState} {id : Nat} {t : GuestTable} {v r : GuestValue} {hop : Hop}

theorem hop?_key (ht : g.tables[id]? = some t) (k : GuestValue) :
    g.hop? (.table id) (.key k) = some (t.get k) := by
  rw [hop?, ht, Option.map_some]

theorem hop?_metatable (ht : g.tables[id]? = some t) :
    g.hop? (.table id) .metatable = t.metatable.map .table := by
  rw [hop?, ht, Option.bind_some]

/-- One only goes on from a table. -/
theorem table_of_hop? (h : g.hop? v hop = some r) :
    ∃ id t, v = .table id ∧ g.tables[id]? = some t := by
  cases v with
  | table id =>
    cases ht : g.tables[id]? with
    | some t => exact ⟨id, t, rfl, ht⟩
    | none =>
      cases hop with
      | key k =>
        rw [hop?, ht] at h
        cases h
      | metatable =>
        rw [hop?, ht] at h
        cases h
  | _ => cases h

theorem Extends.hop? (hg : g.Extends g') (h : g.hop? v hop = some r) : g'.hop? v hop = some r := by
  obtain ⟨id, t, rfl, ht⟩ := table_of_hop? h
  cases hop with
  | key k => rwa [hop?_key (hg.tables ht), ← hop?_key ht]
  | metatable => rwa [hop?_metatable (hg.tables ht), ← hop?_metatable ht]

/-- **A path leads to the same value** in every heap that has grown out of this one. -/
theorem Extends.follow? (hg : g.Extends g') (path : List Hop) :
    ∀ {v : GuestValue}, g.follow? v path = some r → g'.follow? v path = some r := by
  induction path with
  | nil => exact fun h => h
  | cons hop rest ih =>
    intro v h
    obtain ⟨next, hnext, hrest⟩ := Option.bind_eq_some_iff.1 h
    exact Option.bind_eq_some_iff.2 ⟨next, hg.hop? hnext, ih hrest⟩

end GuestState

namespace GuestTable

variable {values : List GuestValue} {fields : List (String × GuestValue)} {r : GuestValue}

/-- What has an entry under a key is found there. -/
theorem get_of_mem {t : GuestTable} {key : GuestValue} (hkey : key.toKey? = some key)
    (hself : key.rawEqual key = true) (h : (key, r) ∈ t.entries) : t.get key = r := by
  rw [get, hkey]
  exact find_of_mem hkey hself h

/-- An element that is there has an entry. -/
theorem get_ofSequence_filled (short : values.length < 2 ^ 63) {place : Nat}
    (h : values[place]? = some r) (hr : r.isNil = false) :
    (ofSequence values).get (.ofInt ((place + 1 : Nat) : Int)) = r := by
  refine get_of_mem rfl (beq_self_eq_true _) ?_
  rw [entries_ofSequence short]
  refine List.mem_map.2 ⟨(place, r), ?_, rfl⟩
  have hpresent : ∀ (values : List GuestValue) (i place : Nat), values[place]? = some r →
      (i + place, r) ∈ present GuestValue.isNil i values := by
    intro values
    induction values with
    | nil => exact fun i place h => absurd h (by simp)
    | cons v rest ih =>
      intro i place h
      rw [present]
      cases place with
      | zero =>
        obtain rfl : v = r := Option.some.inj h
        rw [hr, if_neg Bool.false_ne_true]
        exact List.mem_cons_self
      | succ place =>
        have hmem := ih (i + 1) place h
        rw [Nat.add_assoc, Nat.add_comm 1] at hmem
        split
        · exact hmem
        · exact List.mem_cons_of_mem _ hmem
  have hmem := hpresent values 0 place h
  rwa [Nat.zero_add] at hmem

/-- The elements of a sequence are found under the indices of their places, and where there is
`nil`, nothing is. -/
theorem get_ofSequence (short : values.length < 2 ^ 63) {place : Nat} (h : values[place]? = some r) :
    (ofSequence values).get (.ofInt ((place + 1 : Nat) : Int)) = r := by
  cases hr : r.isNil with
  | false => exact get_ofSequence_filled short h hr
  | true =>
    obtain rfl := GuestValue.eq_nil_of_isNil hr
    have hlt : place < values.length := (List.getElem?_eq_some_iff.1 h).1
    refine find_eq_nil (has_eq_false.2 fun entry he => ?_)
    rw [entries_ofSequence short] at he
    obtain ⟨other, ho, rfl⟩ := List.mem_map.1 he
    have hat := (getElem?_of_mem_present ho).2
    have hbound := ((present_places values 0).2 other ho).2
    refine beq_eq_false_iff_ne.2 fun heq => ?_
    have hint := congrArg Int64.toInt heq
    rw [Int64.toInt_ofInt_of_le (by omega) (by omega),
      Int64.toInt_ofInt_of_le (by omega) (by omega)] at hint
    have hsame : other.1 - 0 = place := by omega
    rw [hsame, h] at hat
    have hfilled := (of_mem_present ho).2
    rw [← Option.some.inj hat] at hfilled
    cases hfilled

/-- Fields are found under their names, and under the name of one that is `nil`, nothing is. -/
theorem get_ofFields (names : (fields.map (·.1)).Nodup) {name : String} (h : (name, r) ∈ fields) :
    (ofFields fields).get (.ofString name) = r := by
  cases hr : r.isNil with
  | false =>
    refine get_of_mem rfl (beq_self_eq_true _) ?_
    rw [entries_ofFields names]
    refine List.mem_map.2 ⟨(name, r), List.mem_filter.2 ⟨h, ?_⟩, rfl⟩
    rw [hr, Bool.not_false]
  | true =>
    obtain rfl := GuestValue.eq_nil_of_isNil hr
    refine find_eq_nil (has_eq_false.2 fun entry he => ?_)
    rw [entries_ofFields names] at he
    obtain ⟨field, hf, rfl⟩ := List.mem_map.1 he
    obtain ⟨hf, hfilled⟩ := List.mem_filter.1 hf
    refine beq_eq_false_iff_ne.2 fun heq => ?_
    have hname : field.1 = name := String.toByteArray_inj.1 heq
    rw [List.inj_on_of_nodup_map names hf h hname] at hfilled
    cases hfilled

end GuestTable
end ScriptPool
