import ScriptPool.Proofs.Toml.Numbers
import ScriptPool.Proofs.Toml.Strings
import ScriptPool.Toml.Document

/-!
# TOML documents are read back

What is written for a table is text in pieces: a line for every plain entry, and a header for every
table under it.  A piece is read as a statement whatever follows it, so the text is read as the
statements of its pieces (`Reads`), and these build up the table that was written.

## What is here

* `Plain`, `Item.IsPlain` — entries of a line each, under keys without quotes.
* `readTerm_writeInline` — a plain value is read back.
* `Reads` — text that is read as statements in front of any other text.
* `foldlM_sections` — the statements of a document build it up.
* `parse?_write` — **a document of plain entries and sections is read back.**
-/

set_option autoImplicit false

namespace ScriptPool
namespace Toml

/-! ## Plain values -/

/-- The value fits on one line, and TOML can express it exactly. -/
def Item.IsPlain : Item → Prop
  | .string _ => True
  | .integer n => inRange n = true
  | .float x => x.isNaN = false
  | .boolean _ => True
  | _ => False

/-- A plain value as it is written. -/
def Item.term : Item → Term
  | .string s => .string s
  | .integer n => .integer n
  | .float x => .float x
  | .boolean b => .boolean b
  | _ => .datetime

theorem Item.IsPlain.toItem?_term {item : Item} (h : item.IsPlain) :
    item.term.toItem? = some item := by
  cases item with
  | string s => rfl
  | integer n => rfl
  | float x => rfl
  | boolean b => rfl
  | datetime => exact h.elim
  | array items => exact h.elim
  | table entries => exact h.elim

theorem Item.IsPlain.isTable_eq_false {item : Item} (h : item.IsPlain) : item.isTable = false := by
  cases item with
  | table entries => exact h.elim
  | _ => rfl

theorem readTerm_string {s : String} {fuel depth : Nat} {rest : List Char} :
    readTerm (fuel + 1) depth ((writeString s).toList ++ '\n' :: rest)
      = some (.string s, '\n' :: rest) := by
  have hread := readString_writeString s rest
  cases htext : (writeString s).toList ++ '\n' :: rest with
  | nil => exact absurd (congrArg List.length htext) (by simp)
  | cons c cs =>
    rw [htext] at hread
    by_cases hc : c = '"'
    · subst hc
      rw [readTerm, hread]
      rfl
    · by_cases hc' : c = '\''
      · subst hc'
        rw [readTerm, hread]
        rfl
      · rw [readString] at hread
        · cases hread
        all_goals exact fun r heq => by cases heq; contradiction

/-- **A plain value is read back.** -/
theorem readTerm_writeInline {item : Item} (h : item.IsPlain) {fuel depth : Nat}
    {rest : List Char} :
    readTerm (fuel + 1) depth ((writeInline item).toList ++ '\n' :: rest)
      = some (item.term, '\n' :: rest) := by
  cases item with
  | string s =>
    rw [writeInline]
    exact readTerm_string
  | integer n =>
    rw [writeInline]
    exact readTerm_integer h
  | float x =>
    rw [writeInline]
    exact readTerm_float h
  | boolean b =>
    rw [writeInline]
    cases b <;> rfl
  | datetime => exact h.elim
  | array items => exact h.elim
  | table entries => exact h.elim

/-- No value begins with a blank. -/
theorem readTerm_isSpace {c : Char} (hc : isSpace c = true) (fuel depth : Nat) (cs : List Char) :
    readTerm (fuel + 1) depth (c :: cs) = none := by
  have hc : c = ' ' ∨ c = '\t' := by simpa [isSpace] using hc
  have hdigit : c.isDigit = false := by rcases hc with rfl | rfl <;> rfl
  have hdate : datetime ([] ++ c :: cs) = none :=
    datetime_eq_none (fun _ h => absurd h List.not_mem_nil) hdigit fun h => absurd rfl h
  have hspecial : specialFloat (c :: cs) = none := by rcases hc with rfl | rfl <;> rfl
  have hbased : basedInteger (c :: cs) = none := by rcases hc with rfl | rfl <;> rfl
  have hdecimal : decimalNumber (c :: cs) = none := by rcases hc with rfl | rfl <;> rfl
  rw [readTerm_number (by rcases hc with rfl | rfl <;> decide) hdate hbased, hspecial, hdecimal]

theorem skipSpace_cons {c : Char} (h : isSpace c = false) (cs : List Char) :
    skipSpace (c :: cs) = c :: cs := by
  rw [skipSpace, List.dropWhile_cons_of_neg (by rw [h]; exact Bool.false_ne_true)]

/-- Blanks in front of a plain value are skipped, and none of its own. -/
theorem skipSpace_writeInline {item : Item} (h : item.IsPlain) (rest : List Char) :
    skipSpace (' ' :: ((writeInline item).toList ++ '\n' :: rest))
      = (writeInline item).toList ++ '\n' :: rest := by
  have hread : readTerm (0 + 1) 0 ((writeInline item).toList ++ '\n' :: rest) = _ :=
    readTerm_writeInline h
  show skipSpace ((writeInline item).toList ++ '\n' :: rest) = _
  cases htext : (writeInline item).toList ++ '\n' :: rest with
  | nil => rfl
  | cons c cs =>
    rw [htext] at hread
    cases hc : isSpace c with
    | false => exact skipSpace_cons hc cs
    | true =>
      rw [readTerm_isSpace hc] at hread
      cases hread

/-! ## Keys -/

/-- A key that needs no quotes. -/
def IsBare (key : String) : Prop := key ≠ "" ∧ key.toList.all isBareKeyChar = true

instance (key : String) : Decidable (IsBare key) := inferInstanceAs (Decidable (_ ∧ _))

theorem IsBare.isBareKeyChar {key : String} (h : IsBare key) :
    ∀ c ∈ key.toList, isBareKeyChar c = true := List.all_eq_true.1 h.2

theorem IsBare.exists_cons {key : String} (h : IsBare key) :
    ∃ c cs, key.toList = c :: cs ∧ Toml.isBareKeyChar c = true := by
  obtain ⟨c, cs, hkey⟩ : ∃ c cs, key.toList = c :: cs :=
    List.exists_cons_of_ne_nil fun hnil => h.1 (String.toList_eq_nil_iff.1 hnil)
  exact ⟨c, cs, hkey, h.isBareKeyChar c (hkey ▸ List.mem_cons_self)⟩

theorem IsBare.writeKey {key : String} (h : IsBare key) : writeKey key = key := by
  rw [Toml.writeKey, if_pos]
  exact Bool.and_eq_true_iff.2 ⟨decide_eq_true h.1, h.2⟩

/-- A character that begins a statement: no blank, comment or line end. -/
structure IsVisible (c : Char) : Prop where
  space : isSpace c = false
  comment : c ≠ '#'
  newline : c ≠ '\n'
  carriage : c ≠ '\r'
  mark : c.toNat ≠ 0xfeff

theorem ne_of_isBareKeyChar {c d : Char} (hc : isBareKeyChar c = true)
    (hd : isBareKeyChar d = false) : c ≠ d := by
  rintro rfl
  rw [hc] at hd
  cases hd

theorem isVisible_of_isBareKeyChar {c : Char} (h : isBareKeyChar c = true) : IsVisible c := by
  refine ⟨?_, ne_of_isBareKeyChar h rfl, ne_of_isBareKeyChar h rfl, ne_of_isBareKeyChar h rfl, ?_⟩
  · have hspace : c ≠ ' ' ∧ c ≠ '\t' := ⟨ne_of_isBareKeyChar h rfl, ne_of_isBareKeyChar h rfl⟩
    simp [isSpace, hspace]
  · intro hmark
    obtain rfl : c = Char.ofNat 0xfeff := Char.toNat_inj.1 hmark
    cases h

/-- A key without quotes is read up to the first character that cannot be part of one. -/
theorem simpleKey_append {key : String} (h : IsBare key) {d : Char} (hd : isBareKeyChar d = false)
    (rest : List Char) : simpleKey (key.toList ++ d :: rest) = some (key, d :: rest) := by
  have hdrop : (key.toList ++ d :: rest).dropWhile isBareKeyChar = d :: rest := by
    rw [List.dropWhile_append_of_pos h.isBareKeyChar,
      List.dropWhile_cons_of_neg (by rw [hd]; exact Bool.false_ne_true)]
  have htake : (key.toList ++ d :: rest).takeWhile isBareKeyChar = key.toList := by
    rw [List.takeWhile_append_of_pos h.isBareKeyChar,
      List.takeWhile_cons_of_neg (by rw [hd]; exact Bool.false_ne_true), List.append_nil]
  obtain ⟨c, cs, hkey, hc⟩ := h.exists_cons
  have hempty : key.toList.isEmpty = false := by
    rw [hkey]
    rfl
  rw [simpleKey]
  · rw [htake, hdrop, hempty]
    exact congrArg some (Prod.ext String.ofList_toList rfl)
  all_goals
    intro r heq
    rw [hkey] at heq
    rw [(List.cons.inj heq).1] at hc
    cases hc

theorem readPath_append {key : String} (h : IsBare key) {cs rest : List Char} {d : Char}
    (hcs : ∃ e es, cs = e :: es ∧ isBareKeyChar e = false)
    (hrest : skipSpace cs = d :: rest) (hd : d ≠ '.') (fuel : Nat) :
    readPath (fuel + 1) (key.toList ++ cs) = some ([key], d :: rest) := by
  obtain ⟨e, es, rfl, he⟩ := hcs
  obtain ⟨c, tail, hkey, hc⟩ := h.exists_cons
  have hskip : skipSpace (key.toList ++ e :: es) = key.toList ++ e :: es := by
    rw [hkey]
    exact skipSpace_cons (isVisible_of_isBareKeyChar hc).space _
  rw [readPath, hskip, simpleKey_append h he]
  simp only [Option.bind_eq_bind, Option.bind_some, hrest]
  split
  · rename_i heq
    exact absurd (List.cons.inj heq).1 hd
  · rfl

/-! ## Statements -/

theorem readStatement_entry {key : String} {item : Item} (hkey : IsBare key) (hitem : item.IsPlain)
    (rest : List Char) :
    readStatement (key.toList ++ ' ' :: '=' :: ' ' :: ((writeInline item).toList ++ '\n' :: rest))
      = some (.entry [key] item.term, '\n' :: rest) := by
  obtain ⟨c, cs, hcs, hc⟩ := hkey.exists_cons
  have hpath : ∀ fuel, readPath (fuel + 1) (key.toList
      ++ ' ' :: '=' :: ' ' :: ((writeInline item).toList ++ '\n' :: rest)) = some ([key], _) :=
    readPath_append hkey ⟨_, _, rfl, rfl⟩ rfl (by decide)
  rw [readStatement]
  · simp only [hpath, Option.bind_eq_bind, Option.bind_some, char, if_true,
      skipSpace_writeInline hitem, readTerm_writeInline hitem]
  all_goals
    intro r heq
    rw [hcs] at heq
    rw [(List.cons.inj heq).1] at hc
    cases hc

theorem readStatement_header {key : String} (hkey : IsBare key) (rest : List Char) :
    readStatement ('[' :: (key.toList ++ ']' :: '\n' :: rest))
      = some (.table [key], '\n' :: rest) := by
  obtain ⟨c, cs, hcs, hc⟩ := hkey.exists_cons
  have hpath : ∀ fuel, readPath (fuel + 1) (key.toList ++ ']' :: '\n' :: rest) = some ([key], _) :=
    readPath_append hkey ⟨_, _, rfl, rfl⟩ rfl (by decide)
  rw [readStatement]
  · simp only [header, hpath, Option.bind_eq_bind, Option.bind_some]
    rfl
  · intro r heq
    rw [hcs] at heq
    rw [(List.cons.inj heq).1] at hc
    cases hc

/-! ## Sequences of statements -/

theorem skipLines_visible {c : Char} (h : IsVisible c) (fuel : Nat) (cs : List Char) :
    skipLines (fuel + 1) (c :: cs) = c :: cs := by
  have hcomment : skipComment (c :: cs) = c :: cs := by
    rw [skipComment]
    exact fun r heq => h.comment (List.cons.inj heq).1
  rw [skipLines, skipSpace_cons h.space, hcomment, newline?_cons h.newline h.carriage]

/-- Text that is read as statements, whatever follows it. -/
structure Reads (text : List Char) (statements : List Statement) : Prop where
  length : statements.length ≤ text.length
  mark : ∀ rest, dropMark rest = rest → dropMark (text ++ rest) = text ++ rest
  read : ∀ fuel rest, readStatements (fuel + statements.length) (text ++ rest)
    = (readStatements fuel rest).map (statements ++ ·)

theorem Reads.nil : Reads [] [] := by
  refine ⟨Nat.le_refl 0, fun _ h => h, fun fuel rest => ?_⟩
  rw [List.nil_append]
  exact (Option.map_id').symm

theorem Reads.append {a b : List Char} {xs ys : List Statement} (ha : Reads a xs)
    (hb : Reads b ys) : Reads (a ++ b) (xs ++ ys) := by
  refine ⟨?_, fun rest h => ?_, fun fuel rest => ?_⟩
  · rw [List.length_append, List.length_append]
    exact Nat.add_le_add ha.length hb.length
  · rw [List.append_assoc]
    exact ha.mark _ (hb.mark rest h)
  · have hlength : fuel + (xs ++ ys).length = fuel + ys.length + xs.length := by
      rw [List.length_append]
      omega
    rw [hlength, List.append_assoc, ha.read, hb.read, Option.map_map]
    exact congrArg (fun f => (readStatements fuel rest).map f)
      (funext fun statements => (List.append_assoc xs ys statements).symm)

theorem Reads.flatMap {α : Type} {items : List α} {text : α → List Char}
    {statements : α → List Statement} (h : ∀ a ∈ items, Reads (text a) (statements a)) :
    Reads (items.flatMap text) (items.flatMap statements) := by
  induction items with
  | nil => exact Reads.nil
  | cons a items ih =>
    exact (h a List.mem_cons_self).append (ih fun b hb => h b (List.mem_cons_of_mem a hb))

/-- One statement on a line of its own, with blank lines in front of it. -/
theorem Reads.of_readStatement {c : Char} {blank cs : List Char} {statement : Statement}
    (hc : IsVisible c) (hblank : blank = [] ∨ blank = ['\n'])
    (h : ∀ rest, readStatement (c :: (cs ++ '\n' :: rest)) = some (statement, '\n' :: rest)) :
    Reads (blank ++ c :: (cs ++ ['\n'])) [statement] := by
  refine ⟨?_, fun rest _ => ?_, fun fuel rest => ?_⟩
  · simp only [List.length_append, List.length_cons, List.length_nil]
    omega
  · rcases hblank with rfl | rfl
    · exact if_neg hc.mark
    · rfl
  · have hskip : skipSpace (skipBetween (blank ++ c :: (cs ++ ['\n']) ++ rest))
        = c :: (cs ++ '\n' :: rest) := by
      have htext : blank ++ c :: (cs ++ ['\n']) ++ rest = blank ++ c :: (cs ++ '\n' :: rest) := by
        simp
      rw [htext, skipBetween]
      rcases hblank with rfl | rfl
      · rw [List.nil_append, skipLines_visible hc, skipSpace_cons hc.space]
      · show skipSpace (skipLines (_ + 1) (c :: (cs ++ '\n' :: rest))) = _
        rw [skipLines_visible hc, skipSpace_cons hc.space]
    have hend : lineEnd? ('\n' :: rest) = some rest := rfl
    rw [List.length_singleton, readStatements, hskip]
    simp only [h, Option.bind_eq_bind, Option.bind_some, hend]
    cases readStatements fuel rest with
    | none => rfl
    | some statements => rfl

/-- A text that reads as statements has just these. -/
theorem Reads.statements? {text : String} {statements : List Statement}
    (h : Reads text.toList statements) : statements? text = some statements := by
  have hread := h.read (text.toList.length - statements.length + 1) []
  have hfuel : text.toList.length - statements.length + 1 + statements.length
      = text.toList.length + 1 := by
    have := h.length
    omega
  have hmark := h.mark [] rfl
  rw [List.append_nil] at hmark
  rw [hfuel, List.append_nil] at hread
  rw [Toml.statements?, hmark, hread]
  show some (statements ++ []) = _
  rw [List.append_nil]

/-! ## Building up the document

Statements are added to a tree that grows.  A document of the kind that is written has no name
twice, so each statement finds its place empty. -/

/-- Entries of one line each, under different keys. -/
structure Plain (entries : Entries) : Prop where
  keys : ∀ entry ∈ entries, IsBare entry.1
  items : ∀ entry ∈ entries, entry.2.IsPlain
  nodup : (entries.map (·.1)).Nodup

/-- A plain entry as a statement. -/
def entryStatement (entry : String × Item) : Statement := .entry [entry.1] entry.2.term

/-- The statements for a table under a header. -/
def sectionStatements (part : String × Entries) : List Statement :=
  .table [part.1] :: part.2.map entryStatement

/-- Plain entries as they stand in a table under construction. -/
def leaves (entries : Entries) : Trees := entries.map fun entry => (entry.1, .leaf entry.2)

theorem any_key_eq_false {trees : Trees} {key : String} (h : key ∉ trees.map (·.1)) :
    (trees.any fun entry => entry.1 == key) = false := by
  rw [List.any_eq_false]
  intro entry hentry hkey
  exact h (List.mem_map.2 ⟨entry, hentry, beq_iff_eq.1 hkey⟩)

theorem Trees.set_of_notMem {trees : Trees} {key : String} (h : key ∉ trees.map (·.1))
    (tree : Tree) : trees.set key tree = trees ++ [(key, tree)] := by
  rw [Trees.set, any_key_eq_false h]
  rfl

theorem Trees.get?_of_notMem {trees : Trees} {key : String} (h : key ∉ trees.map (·.1)) :
    trees.get? key = none := by
  rw [Trees.get?, List.find?_eq_none.2]
  · rfl
  · intro entry hentry hkey
    exact h (List.mem_map.2 ⟨entry, hentry, beq_iff_eq.1 hkey⟩)

theorem toEntries_append (a b : Trees) : toEntries (a ++ b) = toEntries a ++ toEntries b := by
  induction a with
  | nil => rfl
  | cons tree a ih =>
    obtain ⟨key, tree⟩ := tree
    rw [List.cons_append, toEntries, ih, toEntries, List.cons_append]

theorem toEntries_leaves (entries : Entries) : toEntries (leaves entries) = entries := by
  induction entries with
  | nil => rfl
  | cons entry entries ih =>
    show (entry.1, entry.2) :: toEntries (leaves entries) = _
    rw [ih]

theorem map_fst_leaves (entries : Entries) : (leaves entries).map (·.1) = entries.map (·.1) := by
  rw [leaves, List.map_map]
  rfl

/-- Plain entries under new keys are added to the current table as they are. -/
theorem foldlM_entries {entries : Entries} :
    ∀ {b : Build}, (∀ entry ∈ entries, entry.2.IsPlain) → (entries.map (·.1)).Nodup →
      (∀ entry ∈ entries, entry.1 ∉ b.current.map (·.1)) →
      (entries.map entryStatement).foldlM Build.add? b
        = some { b with current := b.current ++ leaves entries } := by
  induction entries with
  | nil =>
    intro b _ _ _
    show some b = some { b with current := b.current ++ [] }
    rw [List.append_nil]
  | cons entry entries ih =>
    intro b hplain hnodup hnew
    obtain ⟨key, item⟩ := entry
    obtain ⟨hkey, hnodup⟩ := List.nodup_cons.1 hnodup
    have hfresh : key ∉ b.current.map (·.1) := hnew (key, item) List.mem_cons_self
    have hitem : item.term.toItem? = some item :=
      (hplain (key, item) List.mem_cons_self).toItem?_term
    have hadd : b.add? (entryStatement (key, item))
        = some { b with current := b.current ++ [(key, .leaf item)] } := by
      rw [entryStatement, Build.add?, hitem]
      simp only [Option.bind_eq_bind, Option.bind_some, addDotted, any_key_eq_false hfresh,
        Bool.false_eq_true, if_false, Trees.set_of_notMem hfresh]
    have hnew' : ∀ entry ∈ entries, entry.1 ∉ (b.current ++ [(key, Tree.leaf item)]).map (·.1) := by
      intro entry hentry hmem
      rw [List.map_append, List.mem_append] at hmem
      rcases hmem with hmem | hmem
      · exact hnew entry (List.mem_cons_of_mem _ hentry) hmem
      · exact hkey (List.mem_map.2 ⟨entry, hentry, List.mem_singleton.1 hmem⟩)
    rw [List.map_cons, List.foldlM_cons, hadd]
    refine (ih (fun entry hentry => hplain entry (List.mem_cons_of_mem _ hentry)) hnodup
      hnew').trans ?_
    rw [List.append_assoc]
    rfl

/-- The trees of tables under their headers. -/
def sectionTrees (parts : List (String × Entries)) : Trees :=
  parts.map fun part => (part.1, .table .header (leaves part.2))

/-- Tables under new keys are added to the document as they are: each header puts the table before
it at its place, which is the end of the document. -/
theorem foldlM_sections {parts : List (String × Entries)} :
    ∀ {b : Build} {root : Trees}, b.finish? = some root → (∀ part ∈ parts, Plain part.2) →
      (root.map (·.1) ++ parts.map (·.1)).Nodup →
      ∃ b', (parts.flatMap sectionStatements).foldlM Build.add? b = some b'
        ∧ b'.finish? = some (root ++ sectionTrees parts) := by
  induction parts with
  | nil =>
    intro b root hfinish _ _
    exact ⟨b, rfl, by rw [hfinish]; exact congrArg some (List.append_nil root).symm⟩
  | cons part parts ih =>
    intro b root hfinish hplain hnodup
    obtain ⟨key, entries⟩ := part
    have hentries : Plain entries := hplain (key, entries) List.mem_cons_self
    have hfresh : key ∉ root.map (·.1) := fun hmem =>
      (List.nodup_append.1 hnodup).2.2 key hmem key List.mem_cons_self rfl
    have hopen : b.add? (.table [key]) = some ⟨root, [key], false, []⟩ := by
      have hlookup : openTable?.lookup [] key root = some none :=
        congrArg some (Trees.get?_of_notMem hfresh)
      rw [Build.add?, hfinish]
      show openTable? [key] root = _
      rw [openTable?]
      simp only [List.getLast?_singleton, List.dropLast_singleton, hlookup, Option.bind_eq_bind,
        Option.bind_some]
    have hcurrent : (entries.map entryStatement).foldlM Build.add? ⟨root, [key], false, []⟩
        = some ⟨root, [key], false, leaves entries⟩ :=
      foldlM_entries hentries.items hentries.nodup fun _ _ => List.not_mem_nil
    have hfinish' : Build.finish? ⟨root, [key], false, leaves entries⟩
        = some (root ++ [(key, .table .header (leaves entries))]) := by
      rw [Build.finish?]
      simp only [List.getLast?_singleton, List.dropLast_singleton, underHeader, Bool.false_eq_true,
        if_false, any_key_eq_false hfresh, Trees.set_of_notMem hfresh]
    have hnodup' : ((root ++ [(key, Tree.table .header (leaves entries))]).map (·.1)
        ++ parts.map (·.1)).Nodup := by
      rw [List.map_append, List.append_assoc]
      exact hnodup
    obtain ⟨b', hfold, hdone⟩ := ih hfinish'
      (fun part hpart => hplain part (List.mem_cons_of_mem _ hpart)) hnodup'
    refine ⟨b', ?_, ?_⟩
    · rw [List.flatMap_cons, List.foldlM_append, sectionStatements, List.foldlM_cons, hopen]
      show (((entries.map entryStatement).foldlM Build.add? _).bind _) = _
      rw [hcurrent]
      exact hfold
    · rw [hdone, List.append_assoc]
      rfl

/-! ## Reading what was written

Pieces are read one after the other, and each is read in the same way whatever text follows it.  So
texts can be put together as their statements are. -/

/-- The lines of plain entries. -/
def lines (entries : Entries) : String := String.join ((writeEntries entries).map (· ++ "\n"))

theorem writeEntries_eq_map (entries : Entries) : writeEntries entries
    = entries.map fun entry => writeKey entry.1 ++ " = " ++ writeInline entry.2 := by
  induction entries with
  | nil => rfl
  | cons entry entries ih =>
    obtain ⟨key, item⟩ := entry
    rw [writeEntries, ih, List.map_cons]

/-- A plain entry is read from its line. -/
theorem reads_entry {entry : String × Item} (hkey : IsBare entry.1) (hitem : entry.2.IsPlain) :
    Reads (writeKey entry.1 ++ " = " ++ writeInline entry.2 ++ "\n").toList
      [entryStatement entry] := by
  obtain ⟨c, cs, hcs, hc⟩ := hkey.exists_cons
  have hread := readStatement_entry hkey hitem
  rw [hcs] at hread
  have htext : (writeKey entry.1 ++ " = " ++ writeInline entry.2 ++ "\n").toList
      = [] ++ c :: (cs ++ ' ' :: '=' :: ' ' :: (writeInline entry.2).toList ++ ['\n']) := by
    rw [hkey.writeKey, String.toList_append, String.toList_append, String.toList_append, hcs,
      List.append_assoc, List.append_assoc, List.append_assoc]
    rfl
  rw [htext]
  refine Reads.of_readStatement (isVisible_of_isBareKeyChar hc) (.inl rfl) fun rest => ?_
  rw [List.append_assoc]
  exact hread rest

theorem reads_lines {entries : Entries} (h : Plain entries) :
    Reads (lines entries).toList (entries.map entryStatement) := by
  have hread : Reads (entries.flatMap fun entry =>
      (writeKey entry.1 ++ " = " ++ writeInline entry.2 ++ "\n").toList)
      (entries.flatMap fun entry => [entryStatement entry]) :=
    Reads.flatMap fun entry hentry => reads_entry (h.keys entry hentry) (h.items entry hentry)
  rw [lines, String.toList_join, writeEntries_eq_map, List.map_map, List.flatMap_map,
    List.map_eq_flatMap]
  exact hread

/-- A table is read from its header and its lines. -/
theorem reads_section {part : String × Entries} (hkey : IsBare part.1) (hplain : Plain part.2) :
    Reads ("\n[" ++ writeKey part.1 ++ "]\n" ++ lines part.2).toList (sectionStatements part) := by
  have hvisible : IsVisible '[' := ⟨rfl, by decide, by decide, by decide, by decide⟩
  have hheader : Reads (['\n'] ++ '[' :: (part.1.toList ++ [']'] ++ ['\n'])) [.table [part.1]] := by
    refine Reads.of_readStatement hvisible (.inr rfl) fun rest => ?_
    rw [List.append_assoc]
    exact readStatement_header hkey rest
  have htext : ("\n[" ++ writeKey part.1 ++ "]\n" ++ lines part.2).toList
      = ['\n'] ++ '[' :: (part.1.toList ++ [']'] ++ ['\n']) ++ (lines part.2).toList := by
    rw [hkey.writeKey, String.toList_append, String.toList_append, String.toList_append,
      List.append_assoc part.1.toList]
    rfl
  rw [htext]
  exact hheader.append (reads_lines hplain)

/-- Tables under headers as entries of a document. -/
def sections (parts : List (String × Entries)) : Entries :=
  parts.map fun part => (part.1, .table part.2)

theorem filter_isTable {plain : Entries} (h : Plain plain) (parts : List (String × Entries)) :
    (plain ++ sections parts).filter (fun entry => !entry.2.isTable) = plain := by
  rw [List.filter_append, List.filter_eq_self.2, List.filter_eq_nil_iff.2, List.append_nil]
  · intro entry hentry
    obtain ⟨part, -, rfl⟩ := List.mem_map.1 hentry
    exact Bool.false_ne_true
  · intro entry hentry
    rw [(h.items entry hentry).isTable_eq_false]
    rfl

theorem filterMap_table {plain : Entries} (h : Plain plain) (parts : List (String × Entries)) :
    ((plain ++ sections parts).filterMap fun entry =>
      match entry.2 with
      | .table inner => some (entry.1, inner)
      | _ => none) = parts := by
  rw [List.filterMap_append, List.filterMap_eq_nil_iff.2, List.nil_append, sections,
    List.filterMap_map]
  · exact List.filterMap_some
  · intro entry hentry
    have hitem := (h.items entry hentry).isTable_eq_false
    cases hcase : entry.2 with
    | table inner =>
      rw [hcase] at hitem
      cases hitem
    | _ => rfl

theorem toEntries_sectionTrees (parts : List (String × Entries)) :
    toEntries (sectionTrees parts) = sections parts := by
  induction parts with
  | nil => rfl
  | cons part parts ih =>
    show (part.1, Tree.toItem (.table .header (leaves part.2)))
      :: toEntries (sectionTrees parts) = _
    rw [ih, Tree.toItem, toEntries_leaves]
    rfl

theorem write_eq {plain : Entries} (h : Plain plain) (parts : List (String × Entries)) :
    write (plain ++ sections parts) = lines plain ++ String.join (parts.map fun part =>
      "\n[" ++ writeKey part.1 ++ "]\n" ++ lines part.2) := by
  rw [write, filter_isTable h]
  exact congrArg (fun parts : List (String × Entries) => lines plain ++ String.join
    (parts.map fun part => "\n[" ++ writeKey part.1 ++ "]\n" ++ lines part.2))
    (filterMap_table h parts)

/-- **A document of plain entries and sections is read back.** -/
theorem parse?_write {plain : Entries} {parts : List (String × Entries)} (hplain : Plain plain)
    (hkeys : ∀ part ∈ parts, IsBare part.1) (hparts : ∀ part ∈ parts, Plain part.2)
    (hnodup : (plain.map (·.1) ++ parts.map (·.1)).Nodup) :
    parse? (write (plain ++ sections parts)) = some (plain ++ sections parts) := by
  have hsections : Reads (parts.flatMap fun part =>
      ("\n[" ++ writeKey part.1 ++ "]\n" ++ lines part.2).toList)
      (parts.flatMap sectionStatements) :=
    Reads.flatMap fun part hpart => reads_section (hkeys part hpart) (hparts part hpart)
  have htext : (write (plain ++ sections parts)).toList = (lines plain).toList
      ++ parts.flatMap fun part =>
        ("\n[" ++ writeKey part.1 ++ "]\n" ++ lines part.2).toList := by
    rw [write_eq hplain, String.toList_append, String.toList_join, List.flatMap_map]
  have hreads : Reads (write (plain ++ sections parts)).toList
      (plain.map entryStatement ++ parts.flatMap sectionStatements) := by
    rw [htext]
    exact (reads_lines hplain).append hsections
  have hentries : (plain.map entryStatement).foldlM Build.add? ⟨[], [], false, []⟩
      = some ⟨[], [], false, leaves plain⟩ :=
    foldlM_entries hplain.items hplain.nodup fun _ _ => List.not_mem_nil
  have hfinish : Build.finish? ⟨[], [], false, leaves plain⟩ = some (leaves plain) := rfl
  rw [← map_fst_leaves] at hnodup
  obtain ⟨build, hfold, hdone⟩ := foldlM_sections hfinish hparts hnodup
  rw [parse?, hreads.statements?]
  simp only [Option.bind_eq_bind, Option.bind_some, List.foldlM_append, hentries, hfold, hdone,
    toEntries_append, toEntries_leaves, toEntries_sectionTrees]

end Toml
end ScriptPool
