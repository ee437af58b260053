import Mathlib.Data.List.Chain
import Mathlib.Logic.Relation
import ScriptPool.Guest.State

/-!
# Paths in the heap

The tables of a guest state form a graph: there is an edge from one table to another one that it has
as a value.  Tables can share others and can contain themselves.

## What is here

* `GuestState.IsPath` — a path, as the list of the tables that it visits.
* `GuestState.Fits` — no path from a value visits more than so many tables.  This is what a depth
  limit amounts to, and `fits_table_succ` unfolds it by one table.
* `GuestState.Trail` — a path that leads to a table, as the list of the tables before it, the
  nearest one first.  This is what a walk from the root keeps; a table on its own trail lies on a
  cycle (`Trail.onCycle`), and nothing on a cycle fits (`not_fits_of_onCycle`).
-/

set_option autoImplicit false

namespace ScriptPool
namespace GuestState

open Relation

variable {g : GuestState} {a b root id : Nat} {tables path : List Nat}

/-- One table has another one as a value. -/
def Edge (g : GuestState) (a b : Nat) : Prop := ∃ key, (key, .table b) ∈ (g.table a).entries

/-- A path from a table, as the tables that it visits, the first one included. -/
structure IsPath (g : GuestState) (root : Nat) (tables : List Nat) : Prop where
  head : tables.head? = some root
  chain : tables.IsChain g.Edge

/-- One table can be reached from another. -/
def Reaches (g : GuestState) : Nat → Nat → Prop := ReflTransGen g.Edge

/-- A table contains itself, directly or through others. -/
def OnCycle (g : GuestState) (id : Nat) : Prop := TransGen g.Edge id id

/-- No path from the value visits more than so many tables. -/
def Fits (g : GuestState) (n : Nat) (v : GuestValue) : Prop :=
  ∀ id, v = .table id → ∀ tables, g.IsPath id tables → tables.length ≤ n

/-! ## Paths -/

theorem isPath_singleton (g : GuestState) (root : Nat) : g.IsPath root [root] :=
  ⟨rfl, List.isChain_singleton root⟩

theorem IsPath.cons (h : g.IsPath b tables) (e : g.Edge a b) : g.IsPath a (a :: tables) := by
  refine ⟨rfl, h.chain.cons fun c hc => ?_⟩
  rw [h.head] at hc
  rw [← Option.some.inj hc]
  exact e

/-- A path begins with its root, and goes on along an edge or ends. -/
theorem IsPath.cases (h : g.IsPath root tables) :
    tables = [root] ∨ ∃ b rest, tables = root :: rest ∧ g.Edge root b ∧ g.IsPath b rest := by
  obtain ⟨hhead, hchain⟩ := h
  cases tables with
  | nil => cases hhead
  | cons c rest =>
    obtain rfl : c = root := Option.some.inj hhead
    cases rest with
    | nil => exact .inl rfl
    | cons b rest =>
      obtain ⟨he, hrest⟩ := List.isChain_cons_cons.1 hchain
      exact .inr ⟨b, b :: rest, rfl, he, rfl, hrest⟩

theorem IsPath.reaches (h : g.IsPath root tables) (hb : b ∈ tables) : g.Reaches root b := by
  induction tables generalizing root with
  | nil => exact absurd hb List.not_mem_nil
  | cons c rest ih =>
    rcases h.cases with he | ⟨d, rest', he, hedge, hrest⟩
    · rw [he, List.mem_singleton] at hb
      rw [hb]
      exact ReflTransGen.refl
    · obtain ⟨rfl, rfl⟩ := List.cons.inj he
      rcases List.mem_cons.1 hb with rfl | hb
      · exact ReflTransGen.refl
      · exact ReflTransGen.head hedge (ih hrest hb)

/-! ## Values that fit -/

/-- What is not a table fits always. -/
theorem fits_of_ne_table {v : GuestValue} (h : ∀ id, v ≠ .table id) (n : Nat) : g.Fits n v :=
  fun id he => absurd he (h id)

theorem not_fits_zero : ¬ g.Fits 0 (.table id) := fun h =>
  Nat.not_succ_le_zero 0 (h id rfl [id] (g.isPath_singleton id))

/-- A table fits exactly if its values fit, in one less. -/
theorem fits_table_succ {n : Nat} :
    g.Fits (n + 1) (.table id) ↔ ∀ entry ∈ (g.table id).entries, g.Fits n entry.2 := by
  constructor
  · rintro h ⟨key, v⟩ he b rfl tables hpath
    have hle := h id rfl (id :: tables) (hpath.cons ⟨key, he⟩)
    rw [List.length_cons] at hle
    exact Nat.le_of_succ_le_succ hle
  · intro h id' he tables hpath
    obtain rfl : id = id' := GuestValue.table.inj he
    rcases hpath.cases with rfl | ⟨b, rest, rfl, ⟨key, hmem⟩, hrest⟩
    · exact Nat.succ_le_succ (Nat.zero_le n)
    · exact Nat.succ_le_succ (h (key, .table b) hmem b rfl rest hrest)

theorem exists_longer_path (hr : TransGen g.Edge a b) (h : g.IsPath b tables) :
    ∃ longer, g.IsPath a longer ∧ tables.length < longer.length := by
  induction hr using TransGen.head_induction_on with
  | single e => exact ⟨_, h.cons e, Nat.lt_succ_self _⟩
  | head e _ ih =>
    obtain ⟨longer, hpath, hlt⟩ := ih
    exact ⟨_, hpath.cons e, Nat.lt_succ_of_lt hlt⟩

/-- From a table on a cycle, there are paths of any length. -/
theorem not_fits_of_onCycle (h : g.OnCycle id) (n : Nat) : ¬ g.Fits n (.table id) := by
  have hlong : ∀ m, ∃ tables, g.IsPath id tables ∧ m < tables.length := by
    intro m
    induction m with
    | zero => exact ⟨[id], g.isPath_singleton id, Nat.zero_lt_one⟩
    | succ m ih =>
      obtain ⟨tables, hpath, hlt⟩ := ih
      obtain ⟨longer, hpath', hlt'⟩ := exists_longer_path h hpath
      exact ⟨longer, hpath', Nat.lt_of_le_of_lt hlt hlt'⟩
  intro hfits
  obtain ⟨tables, hpath, hlt⟩ := hlong n
  exact absurd (hfits id rfl tables hpath) (Nat.not_le.2 hlt)

/-! ## Trails

The search for cycles has the tables on the way in hand, and it has come along an edge from each of
them to the one before.  So what it has in hand is a path, read backwards. -/

/-- A path from the root to a table: the tables before it, the nearest one first. -/
def Trail (g : GuestState) (root : Nat) (path : List Nat) (id : Nat) : Prop :=
  g.IsPath root (path.reverse ++ [id])

theorem trail_nil (g : GuestState) (root : Nat) : g.Trail root [] root := g.isPath_singleton root

theorem Trail.step (h : g.Trail root path a) (e : g.Edge a b) : g.Trail root (a :: path) b := by
  rw [Trail, List.reverse_cons]
  refine ⟨?_, ?_⟩
  · have hhead := h.head
    rw [List.head?_append] at hhead ⊢
    cases hp : (path.reverse ++ [a]).head? with
    | none =>
      rw [List.head?_append, hhead] at hp
      cases hp
    | some c =>
      rw [List.head?_append, hhead] at hp
      rw [← hp]
      rfl
  · rw [List.isChain_append]
    refine ⟨h.chain, List.isChain_singleton b, fun x hx y hy => ?_⟩
    rw [List.getLast?_append, List.getLast?_singleton, Option.some_or] at hx
    rw [List.head?_cons] at hy
    obtain rfl := Option.some.inj hx
    obtain rfl := Option.some.inj hy
    exact e

theorem Trail.reaches (h : g.Trail root path id) : g.Reaches root id :=
  IsPath.reaches h (List.mem_append_right _ List.mem_cons_self)

/-- A table on its own trail lies on a cycle. -/
theorem Trail.onCycle (h : g.Trail root path id) (hid : id ∈ path) : g.OnCycle id := by
  have hchain : (path.reverse ++ [id]).IsChain (TransGen g.Edge) :=
    h.chain.imp fun _ _ => TransGen.single
  have hpair := List.isChain_iff_pairwise.1 hchain
  exact (List.pairwise_append.1 hpair).2.2 id (List.mem_reverse.2 hid) id List.mem_cons_self

/-! ## Rings

A ring is the shortest way to have a cycle, and the one where the limit matters most: the search
comes back to the root only if the limit lets it go all the way around. -/

/-- A cycle through the root and nothing else: `t 0, t 1, …` are the tables in the order in which
they are visited, `length` of them, and each has entries for the next one and for no other table. -/
structure IsRing (g : GuestState) (root length : Nat) (t : Nat → Nat) : Prop where
  pos : 0 < length
  start : t 0 = root
  round : ∀ i, t (i + length) = t i
  distinct : ∀ i < length, ∀ j < length, t i = t j → i = j
  edge : ∀ i b, g.Edge (t i) b ↔ b = t (i + 1)

namespace IsRing

variable {length : Nat} {t : Nat → Nat}

/-- There is only one way to go. -/
theorem eq_of_isPath (h : g.IsRing root length t) :
    ∀ {i : Nat}, g.IsPath (t i) tables →
      tables = (List.range tables.length).map fun j => t (i + j) := by
  induction tables with
  | nil => exact fun _ => rfl
  | cons c rest ih =>
    intro i hpath
    rcases hpath.cases with he | ⟨b, rest', he, hedge, hrest⟩
    · rw [he]
      rfl
    · obtain ⟨rfl, rfl⟩ := List.cons.inj he
      rw [(h.edge i b).1 hedge] at hrest
      rw [List.length_cons, List.range_succ_eq_map, List.map_cons, List.map_map]
      refine congrArg (List.cons (t i)) ((ih hrest).trans ?_)
      refine List.map_congr_left fun j _ => congrArg t ?_
      show i + 1 + j = i + (j + 1)
      omega

/-- The way goes on for ever. -/
theorem isPath (h : g.IsRing root length t) (n : Nat) :
    ∀ i, g.IsPath (t i) ((List.range (n + 1)).map fun j => t (i + j)) := by
  induction n with
  | zero => exact fun i => g.isPath_singleton (t i)
  | succ n ih =>
    intro i
    rw [List.range_succ_eq_map, List.map_cons, List.map_map]
    have hstep := (ih (i + 1)).cons ((h.edge i (t (i + 1))).2 rfl)
    have hmap : (fun j => t (i + 1 + j)) = (fun j => t (i + j)) ∘ Nat.succ := by
      funext j
      show t (i + 1 + j) = t (i + (j + 1))
      rw [Nat.add_right_comm, Nat.add_assoc]
    rw [hmap] at hstep
    exact hstep

end IsRing
end GuestState
end ScriptPool
