import ScriptPool.Proofs.Interpreter.Collecting
import ScriptPool.Proofs.Interpreter.Fresh

/-!
# What a reset puts back

Whatever was done with an interpreter since it was made, a successful reset makes the tables of its
baseline what they were, but for two things.  A number that was overwritten by another that compares
equal stays overwritten, since nothing is written where the values agree: an integer agrees with the
float that it rounds to, and the two zeros agree, so a borrower can change the subtype of a number
in the library for everyone who comes after.  And what finalizers do when the collection calls them,
at the end of the reset, is not put back any more.

## What is here

* `TableImage.Restored` — how a table relates to its picture once it was put back.
* `Interpreter.tables_reset` — **it is so for every table of the baseline, whatever happened
  before**, and it stays so if nothing is finalized.
-/

set_option autoImplicit false

namespace ScriptPool

/-- A table was put back as a picture shows it, but nothing was written where it agreed anyway. -/
structure TableImage.Restored (image : TableImage) (before after : GuestTable) : Prop where
  metatable : after.metatable = image.contents.metatable
  /-- The keys are those of the picture, with what it shows under them or what was there and agrees.
  -/
  entries : after.entries.Perm
    (image.contents.entries.map fun entry => (entry.1, entry.2.restored (before.find entry.1)))
  /-- Only numbers can agree without being the same. -/
  values : ∀ entry ∈ after.entries, ∃ value, (entry.1, value) ∈ image.contents.entries
    ∧ (entry.2 = value ∨ entry.2 = before.find entry.1 ∧ entry.2.agrees value = true
      ∧ entry.2.isNumber = true ∧ value.isNumber = true)
  exact_iff : after.entries.Perm image.contents.entries
    ↔ ∀ entry ∈ image.contents.entries, (before.find entry.1).agrees entry.2 = true →
      before.find entry.1 = entry.2

theorem TableImage.restored_restoreTable (image : TableImage) (before : GuestTable) :
    image.Restored before (image.restoreTable before) := by
  have hentries := image.perm_restoreTable before
  refine ⟨image.restoreTable_metatable before, hentries, fun entry he => ?_,
    image.restoreTable_exact_iff before⟩
  obtain ⟨found, hfound, rfl⟩ := List.mem_map.1 (hentries.mem_iff.1 he)
  refine ⟨found.2, hfound, ?_⟩
  rcases GuestValue.restored_eq_or found.2 (before.find found.1) with heq | ⟨heq, hagrees, hnumbers⟩
  · exact .inl heq
  · refine .inr ⟨heq, ?_, ?_⟩
    · rwa [heq]
    · rwa [heq]

/-- There is nothing to put back into a table that was not there. -/
theorem TableImage.restored_nothing (image : TableImage) (h : image.contents = {}) :
    image.Restored {} {} := by
  have hrestored := image.restored_restoreTable {}
  have hnothing : image.restoreTable {} = {} := by
    rw [restoreTable, h]
    rfl
  rwa [hnothing] at hrestored

/-- Has a table a number that agrees with the one in its picture and is of the other subtype? -/
def TableImage.isOverwritten (image : TableImage) (t : GuestTable) : Bool :=
  image.contents.entries.any fun entry =>
    (t.find entry.1).agrees entry.2 && (t.find entry.1).typeName != entry.2.typeName

/-- Then it is not exactly as in the picture afterwards. -/
theorem TableImage.Restored.not_perm {image : TableImage} {before after : GuestTable}
    (h : image.Restored before after) (hover : image.isOverwritten before = true) :
    ¬ after.entries.Perm image.contents.entries := by
  obtain ⟨entry, he, hentry⟩ := List.any_eq_true.1 hover
  obtain ⟨hagrees, htype⟩ := Bool.and_eq_true_iff.1 hentry
  intro hperm
  rw [h.exact_iff.1 hperm entry he hagrees] at htype
  exact bne_iff_ne.1 htype rfl

namespace Interpreter

variable {limits : ResourceLimits} {id now : Nat} {i j k : Interpreter} {u u' w w' : World}

/-- **A reset restores every table of the baseline.**  The baseline consists of pictures of the
globals, of the tables that they refer to and of the metatable of strings, taken once the script for
new interpreters had run.  Whatever was done with the interpreter and besides since then, these
tables are given the keys and metatables of their pictures.  They are given the values too, unless
there was a number that agreed with the one in the picture and was not the same.

What comes after that is a collection, which calls the finalizers that it finds.  If it finds none,
the reset leaves the tables like that. -/
theorem tables_reset (hnew : (World.newInterpreter limits id now).run u = (.ok i, u'))
    (hist : i.History u' j w) (hreset : j.reset.run w = ((.ok (), k), w')) :
    ∃ v strings, i.Made limits u v u'
      ∧ (World.stringMetatable i.state).run v = (.ok strings, u')
      ∧ i.baseline = Baseline.pictures (v.state i.state) (u'.state i.state) strings
      ∧ (∀ image ∈ i.baseline, image.Restored ((w.state i.state).table image.table)
        (((j.restored w).state i.state).table image.table))
      ∧ (World.collect i.state).run (j.restored w) = (.ok (), w')
      ∧ ((j.restored w).isSettled i.state = true → w' = j.restored w) := by
  obtain ⟨v, hmade⟩ := World.made_of_newInterpreter hnew
  obtain ⟨strings, hstrings, hbaseline⟩ := hmade.run_stringMetatable
  obtain ⟨hstate, hsame, hleads⟩ := hist.spec
  obtain ⟨-, hcollect, hsettled⟩ := reset_ok hreset
  rw [hstate] at hcollect hsettled
  refine ⟨v, strings, hmade, hstrings, hbaseline, fun image himage => ?_, hcollect, hsettled⟩
  have hlt : i.state < w.states.size := Nat.lt_of_lt_of_le hmade.fresh.1 hleads.states
  have hafter := state_restored (hstate ▸ hlt : j.state < w.states.size)
  rw [hstate, hsame] at hafter
  rw [hafter]
  by_cases hin : image.table < (w.state i.state).tables.size
  · have hnodup : (i.baseline.map (·.table)).Nodup := by
      rw [hbaseline]
      exact Baseline.nodup_pictures _ _ _
    rw [Baseline.table_restore (g := (w.state i.state).endScope) _ hnodup himage hin]
    exact image.restored_restoreTable _
  · -- then the table was not in the heap when the picture was taken, nor is it now
    have hout := Nat.not_lt.1 hin
    have hearlier := Nat.le_trans (hleads.state i.state).tables hout
    have hcontents : image.contents = {} := by
      rw [hbaseline] at himage
      rcases Baseline.eq_take_of_mem himage with heq | heq
      · rw [heq]
        exact GuestState.table_of_le (Nat.le_trans (hmade.leadsTo.state i.state).tables hearlier)
      · rw [heq]
        exact GuestState.table_of_le hearlier
    have hrestored : (i.baseline.restore (w.state i.state).endScope).tables.size ≤ image.table := by
      rwa [Baseline.size_restore]
    rw [GuestState.table_of_le hout, GuestState.table_of_le hrestored]
    exact image.restored_nothing hcontents

/-- A script that overwrites an integer of the library by the float that it rounds to. -/
def overwriting : Script :=
  [.set [.string "math".toUTF8, .string "maxinteger".toUTF8]
    (.literal (.float 9223372036854775808.0))]

/-- Does an interpreter have such a table once that script has run, and can it be reset then, with
nothing to finalize? -/
def keepsOverwritten (i : Interpreter) (u : World) : Bool :=
  let ((_, j), w) := (i.run overwriting).run u
  (j.reset.run w).1.1.isOk && (j.restored w).isSettled i.state
    && i.baseline.any fun image => image.isOverwritten ((w.state i.state).table image.table)

/-- Then there is a history in which it is so. -/
theorem exists_of_keepsOverwritten (h : i.keepsOverwritten u' = true) : ∃ j w k w',
    i.History u' j w ∧ j.reset.run w = ((.ok (), k), w')
      ∧ (j.restored w).isSettled i.state = true
      ∧ ∃ image ∈ i.baseline, image.isOverwritten ((w.state i.state).table image.table) = true := by
  rw [keepsOverwritten] at h
  rcases hrun : (i.run overwriting).run u' with ⟨⟨r, j⟩, w⟩
  rw [hrun] at h
  obtain ⟨hboth, hany⟩ := Bool.and_eq_true_iff.1 h
  obtain ⟨hok, hsettled⟩ := Bool.and_eq_true_iff.1 hboth
  rcases hreset : j.reset.run w with ⟨⟨_ | ⟨⟩, k⟩, w'⟩
  · rw [hreset] at hok
    cases hok
  · exact ⟨j, w, k, w', .of_run hrun, hreset, hsettled, List.any_eq_true.1 hany⟩

/-- The same of an interpreter that is new in an empty world. -/
def newKeepsOverwritten : Bool :=
  match (World.newInterpreter { security := .strict } 0 0).run {} with
  | (.ok i, u') => i.keepsOverwritten u'
  | _ => false

/-- A borrower makes `math.maxinteger` a float, and a reset does not make it an integer again. -/
theorem tables_reset_overwritten : ∃ i u' j w k w',
    (World.newInterpreter { security := .strict } 0 0).run {} = (.ok i, u')
      ∧ i.History u' j w ∧ j.reset.run w = ((.ok (), k), w')
      ∧ ∃ image ∈ i.baseline,
        ¬ ((w'.state i.state).table image.table).entries.Perm image.contents.entries := by
  have hkeeps : newKeepsOverwritten = true := by decide +kernel
  unfold newKeepsOverwritten at hkeeps
  rcases hnew : (World.newInterpreter { security := .strict } 0 0).run {} with ⟨_ | i, u'⟩
  · rw [hnew] at hkeeps
    cases hkeeps
  · rw [hnew] at hkeeps
    obtain ⟨j, w, k, w', hist, hreset, hsettled, image, himage, hover⟩ :=
      exists_of_keepsOverwritten hkeeps
    obtain ⟨v, strings, -, -, -, hall, -, hsame⟩ := tables_reset hnew hist hreset
    refine ⟨i, u', j, w, k, w', rfl, hist, hreset, image, himage, ?_⟩
    rw [hsame hsettled]
    exact (hall image himage).not_perm hover

/-! ## Finalizers

A table that a borrower gave a finalizer and then let go of is found by the collection of the reset,
and the finalizer finds everything restored.  What it does to the globals is there for the next
borrower. -/

/-- A script that leaves such a table behind; its finalizer binds a global. -/
def leavingFinalizer : Script :=
  [.setMetatable (.table []) (.table [(.literal (.string "__gc".toUTF8), .constant (.guarded
    [.set [.string "leaked".toUTF8] (.literal (.integer 1))]))])]

/-- A collector to which every table with a finalizer is out of use. -/
def eagerCollector : Language where
  finalized _ g := (List.range g.tables.size).filter fun table =>
    !(g.metafield (.table table) "__gc").isNil

/-- Is that global bound after a reset that succeeds? -/
def newLeaks : Bool :=
  match (World.newInterpreter { security := .strict } 0 0).run { language := eagerCollector } with
  | (.ok i, u') =>
      let ((_, j), w) := (i.run leavingFinalizer).run u'
      let ((r, _), w') := j.reset.run w
      let g := w'.state i.state
      r.isOk && !(g.rawGet g.globals (.ofString "leaked")).isNil
  | _ => false

example : newLeaks = true := by decide +kernel

end Interpreter
end ScriptPool
