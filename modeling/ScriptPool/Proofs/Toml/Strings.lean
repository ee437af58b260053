import Mathlib.Tactic.SplitIfs
import Mathlib.Tactic.ByContra
import ScriptPool.Toml.Grammar
import ScriptPool.Toml.Writer

/-!
# Strings in TOML are read back

A string is written in one of five forms and read by one of four readers.  Each form has its own
reason why the reader does not stop too early: with escapes, no quote stands by itself; without
them, the writer has looked that the text contains no quote; and over several lines, the text never
has three quotes in a row, so that the first three in a row that the reader meets are the closing
ones, up to two quotes at the end of the text in front of them.

## What is here

* `escapeChar_cases` says how a character is written, and that an escape sequence is read back.
* `basicTail_escaped` and `literalTail_append` read strings on one line.
* `basicLines_escapeLines` and `literalLines_append` read strings over several lines; the second
  needs that no three quotes stand in a row (`ShortRuns`), which the writer finds out by counting
  (`shortRuns_of_longestRun`).
* `readString_writeString` puts the forms together: every string is read back.
-/

set_option autoImplicit false

namespace ScriptPool
namespace Toml

/-! ## Escapes -/

theorem isControl_eq_true {c : Char} :
    isControl c = true ↔ (c.toNat < 0x20 ∧ c ≠ '\t' ∧ c ≠ '\n') ∨ c.toNat = 0x7f := by
  simp [isControl, and_assoc]

/-- What is neither a control character nor a line end can stand in a string of any kind. -/
theorem isStringChar_of_not_isControl {c : Char} (h : ¬ isControl c = true) (hn : c ≠ '\n') :
    isStringChar c = true ∧ c ≠ '\r' := by
  rw [isControl_eq_true, not_or, not_and, not_and, Classical.not_not] at h
  constructor
  · by_cases ht : c = '\t'
    · rw [ht]
      rfl
    · have hlow : 0x20 ≤ c.toNat := by
        by_contra hlt
        exact hn (h.1 (by omega) ht)
      simp [isStringChar, hlow, h.2]
  · rintro rfl
    exact absurd (h.1 (by decide) (by decide)) (by decide)

theorem newline?_cons {c : Char} {r : List Char} (hn : c ≠ '\n') (hr : c ≠ '\r') :
    newline? (c :: r) = none := by
  rw [newline?]
  · exact fun rest heq => hn (List.cons.inj heq).1
  · exact fun rest heq => hr (List.cons.inj heq).1

/-- What follows a backslash is no line end if it begins with a visible character. -/
theorem foldsHere_eq_false {e : Char} (r : List Char) (hspace : isSpace e = false) (hn : e ≠ '\n')
    (hr : e ≠ '\r') : foldsHere (e :: r) = false := by
  have hskip : skipSpace (e :: r) = e :: r := by
    rw [skipSpace, List.dropWhile_cons_of_neg (by rw [hspace]; exact Bool.false_ne_true)]
  rw [foldsHere, hskip, newline?_cons hn hr]
  rfl

/-- Digits that are read and make up the code of a character stand for it. -/
theorem codePoint_of_digits {n : Nat} {cs : List Char} {digits : List Nat} {c : Char}
    (hread : (cs.take n).mapM hexDigit? = some digits) (hlength : digits.length = n)
    (hcode : digits.foldl (fun k d => 16 * k + d) 0 = c.toNat) :
    codePoint n cs = some (c, cs.drop n) := by
  have hvalid : (digits.foldl (fun k d => 16 * k + d) 0).isValidChar := hcode ▸ c.valid
  rw [codePoint, hread]
  show (if digits.length ≠ n then none else if h : _ then _ else _) = _
  rw [if_neg (not_not_intro hlength), dif_pos hvalid]
  exact congrArg some (Prod.ext (Char.toNat_inj.1 hcode) rfl)

/-- Is a number written as two hexadecimal digits, the higher one first? -/
def isTwoHexDigits (n : Nat) : Bool :=
  match (upperHex n).toList with
  | [a, b] => hexDigit? a == some (n / 16) && hexDigit? b == some (n % 16)
  | _ => false

/-- The hexadecimal digits of a control character are read back. -/
theorem codePoint_upperHex {c : Char} (h : c.toNat < 128) (r : List Char) :
    codePoint 4 ('0' :: '0' :: ((upperHex c.toNat).toList ++ r)) = some (c, r) := by
  have hall : ∀ n : Fin 128, isTwoHexDigits n = true := by decide +kernel
  have hhex : isTwoHexDigits c.toNat = true := hall ⟨c.toNat, h⟩
  rw [isTwoHexDigits] at hhex
  split at hhex
  · rename_i a b htext
    obtain ⟨ha, hb⟩ := Bool.and_eq_true_iff.1 hhex
    have ha : hexDigit? a = some (c.toNat / 16) := beq_iff_eq.1 ha
    have hb : hexDigit? b = some (c.toNat % 16) := beq_iff_eq.1 hb
    have hzero : hexDigit? '0' = some 0 := rfl
    have hdigits : ['0', '0', a, b].mapM hexDigit? = some [0, 0, c.toNat / 16, c.toNat % 16] := by
      simp only [List.mapM_cons, List.mapM_nil, hzero, ha, hb]
      rfl
    have hcode : [0, 0, c.toNat / 16, c.toNat % 16].foldl (fun k d => 16 * k + d) 0 = c.toNat := by
      simp only [List.foldl_cons, List.foldl_nil]
      omega
    rw [htext]
    exact codePoint_of_digits hdigits rfl hcode
  · cases hhex

/-- A character is written as an escape sequence, which begins with a backslash and is read back
wherever it stands, or as it is. -/
theorem escapeChar_cases (lines : Bool) (c : Char) :
    (∃ t, (escapeChar lines c).toList = '\\' :: t ∧ (∀ r, escape (t ++ r) = some (c, r))
      ∧ ∀ r, foldsHere (t ++ r) = false)
    ∨ ((escapeChar lines c).toList = [c] ∧ c ≠ '\\' ∧ (c = '"' → lines = true)
      ∧ (c = '\n' → lines = true) ∧ (c ≠ '\n' → isStringChar c = true ∧ c ≠ '\r')) := by
  have hescape : ∀ e : Char, isSpace e = false → e ≠ '\n' → e ≠ '\r' →
      (∀ r, escape (e :: r) = some (c, r)) →
      ∃ t, '\\' :: [e] = '\\' :: t ∧ (∀ r, escape (t ++ r) = some (c, r))
        ∧ ∀ r, foldsHere (t ++ r) = false :=
    fun e hspace hn hr he => ⟨[e], rfl, he, fun r => foldsHere_eq_false r hspace hn hr⟩
  rw [escapeChar]
  split_ifs with hbackslash hquote hlines htab hnewline hlines hbell hfeed hreturn hcontrol
  · subst hbackslash
    exact .inl (hescape '\\' rfl (by decide) (by decide) fun _ => rfl)
  · subst hquote
    exact .inr ⟨rfl, by decide, fun _ => hlines, fun _ => hlines, fun _ => by decide⟩
  · subst hquote
    exact .inl (hescape '"' rfl (by decide) (by decide) fun _ => rfl)
  · subst htab
    exact .inl (hescape 't' rfl (by decide) (by decide) fun _ => rfl)
  · subst hnewline
    exact .inr ⟨rfl, by decide, fun _ => hlines, fun _ => hlines, fun h => absurd rfl h⟩
  · subst hnewline
    exact .inl (hescape 'n' rfl (by decide) (by decide) fun _ => rfl)
  · obtain rfl : c = Char.ofNat 8 := Char.toNat_inj.1 hbell
    exact .inl (hescape 'b' rfl (by decide) (by decide) fun _ => rfl)
  · obtain rfl : c = Char.ofNat 12 := Char.toNat_inj.1 hfeed
    exact .inl (hescape 'f' rfl (by decide) (by decide) fun _ => rfl)
  · subst hreturn
    exact .inl (hescape 'r' rfl (by decide) (by decide) fun _ => rfl)
  · have hlt : c.toNat < 128 := by
      rcases isControl_eq_true.1 hcontrol with h | h <;> omega
    refine .inl ⟨'u' :: '0' :: '0' :: (upperHex c.toNat).toList, ?_,
      fun r => codePoint_upperHex hlt r, fun r => foldsHere_eq_false _ rfl (by decide) (by decide)⟩
    rw [String.toList_append]
    rfl
  · exact .inr ⟨String.toList_singleton c, hbackslash, fun h => absurd h hquote,
      fun h => absurd h hnewline, isStringChar_of_not_isControl hcontrol⟩

/-! ## Strings on one line -/

/-- Characters in a form with escapes. -/
def escaped (cs : List Char) : List Char := cs.flatMap fun c => (escapeChar false c).toList

theorem basicTail_escapeChar (c : Char) (fuel : Nat) (r : List Char) :
    basicTail (fuel + 1) ((escapeChar false c).toList ++ r) = consChar c (basicTail fuel r) := by
  obtain ⟨t, htext, hescape, -⟩ | ⟨htext, hbackslash, hquote, hnewline, hplain⟩ :=
    escapeChar_cases false c
  · rw [htext, List.cons_append, basicTail, hescape]
    rfl
  · have hc : c ≠ '\n' := fun h => Bool.false_ne_true (hnewline h)
    have hq : c ≠ '"' := fun h => Bool.false_ne_true (hquote h)
    rw [htext, List.singleton_append, basicTail, if_pos (hplain hc).1]
    · exact hq
    · exact hbackslash

/-- A string with escapes is read back. -/
theorem basicTail_escaped (r : List Char) :
    ∀ {cs : List Char} {fuel : Nat}, cs.length < fuel →
      basicTail fuel (escaped cs ++ '"' :: r) = some (cs, r) := by
  intro cs
  induction cs with
  | nil =>
    intro fuel hfuel
    obtain ⟨fuel, rfl⟩ := Nat.exists_eq_succ_of_ne_zero (Nat.ne_of_gt hfuel)
    rfl
  | cons c cs ih =>
    intro fuel hfuel
    obtain ⟨fuel, rfl⟩ := Nat.exists_eq_succ_of_ne_zero (Nat.ne_zero_of_lt hfuel)
    have hrest := ih (Nat.lt_of_succ_lt_succ hfuel)
    rw [escaped, List.flatMap_cons, List.append_assoc, basicTail_escapeChar]
    rw [escaped] at hrest
    rw [hrest]
    rfl

/-- A string without escapes is read back. -/
theorem literalTail_append (r : List Char) :
    ∀ {cs : List Char} {fuel : Nat}, (∀ c ∈ cs, isStringChar c = true ∧ c ≠ '\'') →
      cs.length < fuel → literalTail fuel (cs ++ '\'' :: r) = some (cs, r) := by
  intro cs
  induction cs with
  | nil =>
    intro fuel _ hfuel
    obtain ⟨fuel, rfl⟩ := Nat.exists_eq_succ_of_ne_zero (Nat.ne_of_gt hfuel)
    rfl
  | cons c cs ih =>
    intro fuel hcs hfuel
    obtain ⟨fuel, rfl⟩ := Nat.exists_eq_succ_of_ne_zero (Nat.ne_zero_of_lt hfuel)
    obtain ⟨hplain, hquote⟩ := hcs c List.mem_cons_self
    have hrest := ih (fun d hd => hcs d (List.mem_cons_of_mem c hd)) (Nat.lt_of_succ_lt_succ hfuel)
    rw [List.cons_append, literalTail, if_pos hplain, hrest]
    · rfl
    · exact hquote

/-! ## Strings over several lines

The induction is on the characters that are left to write.  What has to be known along the way is
that the text that is left never begins with three quotes, since the reader would take these for the
end. -/

section Lines

variable {q : Char} {r : List Char}

theorem takeWhile_replicate (k : Nat) {d : Char} (hd : d ≠ q) :
    (List.replicate k q ++ d :: r).takeWhile (· = q) = List.replicate k q := by
  rw [List.takeWhile_append_of_pos, List.takeWhile_cons_of_neg, List.append_nil]
  · simpa using hd
  · intro c hc
    simpa using List.eq_of_mem_replicate hc

/-- Up to two quotes in front of something else do not end a string. -/
theorem closing?_eq_none {k : Nat} (hk : k ≤ 2) {d : Char} (hd : d ≠ q) :
    closing? q (List.replicate k q ++ d :: r) = none := by
  rw [closing?, takeWhile_replicate k hd, List.length_replicate, if_neg (by omega)]

/-- Up to two quotes in front of the closing ones belong to the string. -/
theorem closing?_eq_some {k : Nat} (hk : k ≤ 2) {d : Char} (hd : d ≠ q) :
    closing? q (List.replicate k q ++ (List.replicate 3 q ++ d :: r))
      = some (List.replicate k q, d :: r) := by
  have hjoin : List.replicate k q ++ (List.replicate 3 q ++ d :: r)
      = List.replicate (k + 3) q ++ d :: r := by
    rw [← List.append_assoc, List.replicate_append_replicate]
  have hdrop : (List.replicate (k + 3) q ++ d :: r).drop (k + 3) = d :: r :=
    List.drop_left' List.length_replicate
  have hextra : min 2 (k + 3 - 3) = k := by omega
  rw [hjoin, closing?, takeWhile_replicate (k + 3) hd, List.length_replicate,
    if_pos (Nat.le_add_left 3 k)]
  simp only [hextra, hdrop]

/-- A character in the form for several lines, as it begins the text that is left to read. -/
theorem basicLines_escapeChar {c : Char} (hc : c ≠ '"') (fuel : Nat) (r : List Char) :
    basicLines (fuel + 1) ((escapeChar true c).toList ++ r) = consChar c (basicLines fuel r) := by
  obtain ⟨t, htext, hescape, hfold⟩ | ⟨htext, hbackslash, -, -, hplain⟩ := escapeChar_cases true c
  · have hclosing : closing? '"' ('\\' :: (t ++ r)) = none :=
      closing?_eq_none (Nat.zero_le 2) (by decide)
    rw [htext, List.cons_append, basicLines, hclosing]
    dsimp only
    rw [hfold, hescape]
    rfl
  · have hclosing : closing? '"' (c :: r) = none := closing?_eq_none (Nat.zero_le 2) hc
    rw [htext, List.singleton_append, basicLines, hclosing]
    · by_cases hn : c = '\n'
      · subst hn
        rfl
      · dsimp only
        rw [newline?_cons hn (hplain hn).2, if_pos (hplain hn).1]
    · exact hbackslash

theorem basicLines_of_closing {fuel : Nat} {cs : List Char} {result : List Char × List Char}
    (h : closing? '"' cs = some result) : basicLines (fuel + 1) cs = some result := by
  rw [basicLines.eq_def]
  simp only [h]

theorem literalLines_of_closing {fuel : Nat} {cs : List Char} {result : List Char × List Char}
    (h : closing? '\'' cs = some result) : literalLines (fuel + 1) cs = some result := by
  rw [literalLines.eq_def]
  simp only [h]

theorem basicLines_escaped_quote (fuel : Nat) (r : List Char) :
    basicLines (fuel + 1) ('\\' :: '"' :: r) = consChar '"' (basicLines fuel r) := by
  have hclosing : closing? '"' ('\\' :: '"' :: r) = none :=
    closing?_eq_none (Nat.zero_le 2) (by decide)
  rw [basicLines, hclosing]
  dsimp only
  rw [foldsHere_eq_false r rfl (by decide) (by decide)]
  rfl

theorem basicLines_quote {k : Nat} (hk : k + 1 ≤ 2) {d : Char} (hd : d ≠ '"') (fuel : Nat)
    (r : List Char) :
    basicLines (fuel + 1) ('"' :: (List.replicate k '"' ++ d :: r))
      = consChar '"' (basicLines fuel (List.replicate k '"' ++ d :: r)) := by
  have hclosing : closing? '"' ('"' :: (List.replicate k '"' ++ d :: r)) = none :=
    closing?_eq_none hk hd
  rw [basicLines, hclosing]
  · rfl
  · decide

theorem toList_escapeLines_cons {c : Char} (hc : c ≠ '"') (run : Nat) (cs : List Char) :
    (escapeLines run (c :: cs)).toList
      = (escapeChar true c).toList ++ (escapeLines 0 cs).toList := by
  rw [escapeLines, if_neg hc, String.toList_append]

theorem toList_escapeLines_quote {run : Nat} (h : run ≠ 2) (cs : List Char) :
    (escapeLines run ('"' :: cs)).toList = '"' :: (escapeLines (run + 1) cs).toList := by
  rw [escapeLines, if_pos rfl, if_neg h, String.toList_append]
  rfl

theorem toList_escapeLines_third (cs : List Char) :
    (escapeLines 2 ('"' :: cs)).toList = '\\' :: '"' :: (escapeLines 0 cs).toList := by
  rw [escapeLines, if_pos rfl, if_pos rfl, String.toList_append]
  rfl

/-- With the quotes in front of it, the text never begins with three quotes: it is a quote or two
and nothing else, or something else follows them. -/
theorem escapeLines_cases : ∀ (cs : List Char) {run : Nat}, run ≤ 2 →
    (∃ k, run + k ≤ 2 ∧ cs = List.replicate k '"'
      ∧ (escapeLines run cs).toList = List.replicate k '"')
    ∨ ∃ k d t, run + k ≤ 2 ∧ d ≠ '"'
        ∧ (escapeLines run cs).toList = List.replicate k '"' ++ d :: t := by
  intro cs
  induction cs with
  | nil => exact fun hrun => .inl ⟨0, hrun, rfl, rfl⟩
  | cons c cs ih =>
    intro run hrun
    by_cases hc : c = '"'
    · subst hc
      by_cases htwo : run = 2
      · subst htwo
        exact .inr ⟨0, '\\', _, Nat.le_refl 2, by decide, toList_escapeLines_third cs⟩
      · have htext := toList_escapeLines_quote htwo cs
        obtain ⟨k, hk, rfl, hrest⟩ | ⟨k, d, t, hk, hd, hrest⟩ := ih (by omega : run + 1 ≤ 2)
        · refine .inl ⟨k + 1, by omega, List.replicate_succ.symm, ?_⟩
          rw [htext, hrest, List.replicate_succ]
        · refine .inr ⟨k + 1, d, t, by omega, hd, ?_⟩
          rw [htext, hrest, List.replicate_succ, List.cons_append]
    · have htext := toList_escapeLines_cons hc run cs
      obtain ⟨t, he, -, -⟩ | ⟨he, -⟩ := escapeChar_cases true c
      · exact .inr ⟨0, '\\', _, hrun, by decide, by rw [htext, he]; rfl⟩
      · exact .inr ⟨0, c, _, hrun, hc, by rw [htext, he]; rfl⟩

/-- A string over several lines is read back. -/
theorem basicLines_escapeLines {d : Char} (hd : d ≠ '"') (r : List Char) :
    ∀ {cs : List Char} {run fuel : Nat}, run ≤ 2 → cs.length < fuel →
      basicLines fuel ((escapeLines run cs).toList ++ (List.replicate 3 '"' ++ d :: r))
        = some (cs, d :: r) := by
  intro cs
  induction cs with
  | nil =>
    intro run fuel _ hfuel
    obtain ⟨fuel, rfl⟩ := Nat.exists_eq_succ_of_ne_zero (Nat.ne_of_gt hfuel)
    have hclosing := closing?_eq_some (r := r) (Nat.zero_le 2) hd
    exact basicLines_of_closing hclosing
  | cons c cs ih =>
    intro run fuel hrun hfuel
    obtain ⟨fuel, rfl⟩ := Nat.exists_eq_succ_of_ne_zero (Nat.ne_zero_of_lt hfuel)
    have hfuel' : cs.length < fuel := Nat.lt_of_succ_lt_succ hfuel
    by_cases hc : c = '"'
    · subst hc
      by_cases htwo : run = 2
      · subst htwo
        rw [toList_escapeLines_third, List.cons_append, List.cons_append, basicLines_escaped_quote,
          ih (Nat.zero_le 2) hfuel']
        rfl
      · rw [toList_escapeLines_quote htwo]
        have hrest := ih (by omega : run + 1 ≤ 2) hfuel'
        obtain ⟨k, hk, rfl, htext⟩ | ⟨k, e, t, hk, he, htext⟩ :=
          escapeLines_cases cs (by omega : run + 1 ≤ 2)
        · -- the quotes at the end stand in front of the closing ones
          have hclosing := closing?_eq_some (r := r) (by omega : k + 1 ≤ 2) hd
          rw [htext]
          exact basicLines_of_closing hclosing
        · rw [htext, List.append_assoc, List.cons_append] at hrest
          rw [htext, List.cons_append, List.append_assoc, List.cons_append,
            basicLines_quote (by omega) he, hrest]
          rfl
    · rw [toList_escapeLines_cons hc, List.append_assoc, basicLines_escapeChar hc,
        ih (Nat.zero_le 2) hfuel']
      rfl

/-- There are never three of a character in a row. -/
def ShortRuns (q : Char) (cs : List Char) : Prop :=
  ∀ (before : List Char) (k : Nat) (after : List Char),
    cs = before ++ (List.replicate k q ++ after) → k ≤ 2

theorem ShortRuns.tail {c : Char} {cs : List Char} (h : ShortRuns q (c :: cs)) : ShortRuns q cs :=
  fun before k after heq => h (c :: before) k after (by rw [heq, List.cons_append])

theorem ShortRuns.cases : ∀ {cs : List Char}, ShortRuns q cs →
    (∃ k, k ≤ 2 ∧ cs = List.replicate k q)
    ∨ ∃ k d t, k ≤ 2 ∧ d ≠ q ∧ cs = List.replicate k q ++ d :: t := by
  intro cs
  induction cs with
  | nil => exact fun _ => .inl ⟨0, Nat.zero_le 2, rfl⟩
  | cons c cs ih =>
    intro h
    by_cases hc : c = q
    · subst hc
      obtain ⟨k, -, rfl⟩ | ⟨k, d, t, -, hd, rfl⟩ := ih h.tail
      · refine .inl ⟨k + 1, h [] (k + 1) [] ?_, List.replicate_succ.symm⟩
        rw [List.nil_append, List.append_nil, List.replicate_succ]
      · refine .inr ⟨k + 1, d, t, h [] (k + 1) (d :: t) ?_, hd, ?_⟩
        · rw [List.nil_append, List.replicate_succ, List.cons_append]
        · rw [List.replicate_succ, List.cons_append]
    · exact .inr ⟨0, c, cs, Nat.zero_le 2, hc, rfl⟩

/-- One character more, when looking for the longest run: the longest so far, and the present
one. -/
def runStep (q : Char) (runs : Nat × Nat) (c : Char) : Nat × Nat :=
  if c = q then (max runs.1 (runs.2 + 1), runs.2 + 1) else (runs.1, 0)

theorem longestRun_eq (q : Char) (cs : List Char) :
    longestRun q cs = (cs.foldl (runStep q) (0, 0)).1 := rfl

theorem runStep_bounds (q : Char) (cs : List Char) :
    ∀ {runs : Nat × Nat}, runs.2 ≤ runs.1 →
      (cs.foldl (runStep q) runs).2 ≤ (cs.foldl (runStep q) runs).1
        ∧ runs.1 ≤ (cs.foldl (runStep q) runs).1 := by
  induction cs with
  | nil => exact fun h => ⟨h, Nat.le_refl _⟩
  | cons c cs ih =>
    intro runs h
    have hstep : (runStep q runs c).2 ≤ (runStep q runs c).1 ∧ runs.1 ≤ (runStep q runs c).1 := by
      rw [runStep]
      split
      · exact ⟨Nat.le_max_right _ _, Nat.le_max_left _ _⟩
      · exact ⟨Nat.zero_le _, Nat.le_refl _⟩
    obtain ⟨hrun, hbest⟩ := ih hstep.1
    exact ⟨hrun, Nat.le_trans hstep.2 hbest⟩

theorem le_runStep_replicate (q : Char) (k : Nat) :
    ∀ {runs : Nat × Nat}, runs.2 ≤ runs.1 →
      runs.2 + k ≤ ((List.replicate k q).foldl (runStep q) runs).1 := by
  induction k with
  | zero => exact fun h => h
  | succ k ih =>
    intro runs h
    have hstep : runStep q runs q = (max runs.1 (runs.2 + 1), runs.2 + 1) := if_pos rfl
    have hrun : (runStep q runs q).2 ≤ (runStep q runs q).1 := by
      rw [hstep]
      exact Nat.le_max_right _ _
    have hrest : (runStep q runs q).2 + k ≤ _ := ih hrun
    rw [hstep] at hrest
    rw [List.replicate_succ, List.foldl_cons, hstep]
    omega

/-- The longest run is no shorter than any run. -/
theorem le_longestRun (q : Char) (before after : List Char) (k : Nat) :
    k ≤ longestRun q (before ++ (List.replicate k q ++ after)) := by
  have hstart : ((0, 0) : Nat × Nat).2 ≤ ((0, 0) : Nat × Nat).1 := Nat.le_refl 0
  obtain ⟨hbefore, -⟩ := runStep_bounds q before hstart
  obtain ⟨hmiddle, -⟩ := runStep_bounds q (List.replicate k q) hbefore
  obtain ⟨-, hafter⟩ := runStep_bounds q after hmiddle
  rw [longestRun_eq, List.foldl_append, List.foldl_append]
  exact Nat.le_trans (Nat.le_trans (Nat.le_add_left k _) (le_runStep_replicate q k hbefore)) hafter

theorem shortRuns_of_longestRun {cs : List Char} (h : longestRun q cs ≤ 2) : ShortRuns q cs := by
  intro before k after heq
  rw [heq] at h
  exact Nat.le_trans (le_longestRun q before after k) h

/-- A string over several lines without escapes is read back. -/
theorem literalLines_append {d : Char} (hd : d ≠ '\'') (r : List Char) :
    ∀ {cs : List Char} {fuel : Nat}, (∀ c ∈ cs, c ≠ '\n' → isStringChar c = true ∧ c ≠ '\r') →
      ShortRuns '\'' cs → cs.length < fuel →
      literalLines fuel (cs ++ (List.replicate 3 '\'' ++ d :: r)) = some (cs, d :: r) := by
  intro cs
  induction cs with
  | nil =>
    intro fuel _ _ hfuel
    obtain ⟨fuel, rfl⟩ := Nat.exists_eq_succ_of_ne_zero (Nat.ne_of_gt hfuel)
    exact literalLines_of_closing (closing?_eq_some (Nat.zero_le 2) hd)
  | cons c cs ih =>
    intro fuel hplain hshort hfuel
    obtain ⟨fuel, rfl⟩ := Nat.exists_eq_succ_of_ne_zero (Nat.ne_zero_of_lt hfuel)
    obtain ⟨k, hk, hcs⟩ | ⟨k, e, t, hk, he, hcs⟩ := hshort.cases
    · rw [hcs]
      exact literalLines_of_closing (closing?_eq_some hk hd)
    · have hclosing : closing? '\'' (c :: (cs ++ (List.replicate 3 '\'' ++ d :: r))) = none := by
        rw [← List.cons_append, hcs, List.append_assoc]
        exact closing?_eq_none hk he
      have hrest := ih (fun x hx => hplain x (List.mem_cons_of_mem c hx)) hshort.tail
        (Nat.lt_of_succ_lt_succ hfuel)
      rw [List.cons_append, literalLines, hclosing]
      dsimp only
      by_cases hn : c = '\n'
      · subst hn
        show consChar '\n' (literalLines fuel _) = _
        rw [hrest]
        rfl
      · obtain ⟨hc, hr⟩ := hplain c List.mem_cons_self hn
        rw [newline?_cons hn hr, hrest, if_pos hc]
        rfl

end Lines

/-! ## Strings of any kind -/

theorem escapeChar_ne_nil (lines : Bool) (c : Char) : (escapeChar lines c).toList ≠ [] := by
  obtain ⟨t, htext, -⟩ | ⟨htext, -⟩ := escapeChar_cases lines c
  · rw [htext]
    exact List.cons_ne_nil _ _
  · rw [htext]
    exact List.cons_ne_nil _ _

theorem length_le_escaped (cs : List Char) : cs.length ≤ (escaped cs).length := by
  induction cs with
  | nil => exact Nat.le_refl 0
  | cons c cs ih =>
    have hc := List.length_pos_iff.2 (escapeChar_ne_nil false c)
    rw [escaped, List.flatMap_cons, List.length_append, List.length_cons]
    rw [escaped] at ih
    omega

theorem length_le_escapeLines (cs : List Char) :
    ∀ {run : Nat}, cs.length ≤ (escapeLines run cs).toList.length := by
  induction cs with
  | nil => exact Nat.zero_le _
  | cons c cs ih =>
    intro run
    rw [List.length_cons]
    by_cases hc : c = '"'
    · subst hc
      by_cases htwo : run = 2
      · subst htwo
        rw [toList_escapeLines_third, List.length_cons, List.length_cons]
        exact Nat.succ_le_succ (Nat.le_succ_of_le ih)
      · rw [toList_escapeLines_quote htwo, List.length_cons]
        exact Nat.succ_le_succ ih
    · have hpos := List.length_pos_iff.2 (escapeChar_ne_nil true c)
      have hrest : cs.length ≤ (escapeLines 0 cs).toList.length := ih
      rw [toList_escapeLines_cons hc, List.length_append]
      omega

theorem toList_join_escapeChar (cs : List Char) :
    (String.join (cs.map (escapeChar false))).toList = escaped cs := by
  rw [String.toList_join, List.flatMap_map]
  rfl

theorem readString_basic {cs : List Char} (h : ∀ rest, cs ≠ '"' :: '"' :: rest) :
    readString ('"' :: cs) = (basicTail (cs.length + 2) cs).map fun (chars, rest) =>
      (String.ofList chars, rest) := by
  rw [readString]
  · rfl
  · exact h

theorem readString_literal {cs : List Char} (h : ∀ rest, cs ≠ '\'' :: '\'' :: rest) :
    readString ('\'' :: cs) = (literalTail (cs.length + 2) cs).map fun (chars, rest) =>
      (String.ofList chars, rest) := by
  rw [readString]
  · rfl
  · exact h

/-- A string with escapes is never taken for one over several lines. -/
theorem escaped_ne_quotes (cs r rest : List Char) :
    escaped cs ++ '"' :: '\n' :: r ≠ '"' :: '"' :: rest := by
  intro heq
  cases cs with
  | nil => exact absurd (List.cons.inj (List.cons.inj heq).2).1 (by decide)
  | cons c cs =>
    rw [escaped, List.flatMap_cons] at heq
    obtain ⟨t, htext, -⟩ | ⟨htext, -, hquote, -⟩ := escapeChar_cases false c
    · rw [htext] at heq
      exact absurd (List.cons.inj heq).1 (by decide)
    · rw [htext] at heq
      exact Bool.false_ne_true (hquote (List.cons.inj heq).1)

theorem readString_escaped (s : String) (r : List Char) :
    readString ('"' :: (escaped s.toList ++ '"' :: '\n' :: r)) = some (s, '\n' :: r) := by
  have hlength := length_le_escaped s.toList
  rw [readString_basic (escaped_ne_quotes s.toList r), basicTail_escaped]
  · exact congrArg some (Prod.ext String.ofList_toList rfl)
  · rw [List.length_append]
    omega

theorem readString_plain {s : String} (hs : ∀ c ∈ s.toList, isStringChar c = true ∧ c ≠ '\'')
    (r : List Char) :
    readString ('\'' :: (s.toList ++ '\'' :: '\n' :: r)) = some (s, '\n' :: r) := by
  have hquotes : ∀ rest, s.toList ++ '\'' :: '\n' :: r ≠ '\'' :: '\'' :: rest := by
    intro rest heq
    cases hcs : s.toList with
    | nil =>
      rw [hcs] at heq
      exact absurd (List.cons.inj (List.cons.inj heq).2).1 (by decide)
    | cons c cs =>
      rw [hcs] at heq
      have hc := (hs c (by rw [hcs]; exact List.mem_cons_self)).2
      exact hc (List.cons.inj heq).1
  rw [readString_literal hquotes, literalTail_append (r := '\n' :: r) hs]
  · exact congrArg some (Prod.ext String.ofList_toList rfl)
  · rw [List.length_append]
    omega

theorem newline?_escapeLines {cs : List Char} (h : '\n' ∉ cs) (r : List Char) :
    newline? ((escapeLines 0 cs).toList ++ (List.replicate 3 '"' ++ r)) = none := by
  cases cs with
  | nil => exact newline?_cons (by decide) (by decide)
  | cons c cs =>
    have hc : c ≠ '\n' := fun heq => h (by rw [heq]; exact List.mem_cons_self)
    by_cases hquote : c = '"'
    · subst hquote
      rw [toList_escapeLines_quote (by decide)]
      exact newline?_cons (by decide) (by decide)
    · rw [toList_escapeLines_cons hquote]
      obtain ⟨t, htext, -⟩ | ⟨htext, -, -, -, hplain⟩ := escapeChar_cases true c
      · rw [htext]
        exact newline?_cons (by decide) (by decide)
      · rw [htext]
        exact newline?_cons hc (hplain hc).2

/-- A string is read back from the form over several lines, with a line end in front of it or
without. -/
theorem readString_escapeLines {s first : String} {r : List Char}
    (hfirst : dropFirstNewline (first.toList
        ++ ((escapeLines 0 s.toList).toList ++ (List.replicate 3 '"' ++ '\n' :: r)))
      = (escapeLines 0 s.toList).toList ++ (List.replicate 3 '"' ++ '\n' :: r)) :
    readString (("\"\"\"" ++ first ++ escapeLines 0 s.toList ++ "\"\"\"").toList ++ '\n' :: r)
      = some (s, '\n' :: r) := by
  have hlength : s.toList.length ≤ (escapeLines 0 s.toList).toList.length :=
    length_le_escapeLines s.toList
  rw [String.toList_append, String.toList_append, String.toList_append, List.append_assoc,
    List.append_assoc, List.append_assoc]
  show readString ('"' :: '"' :: '"' :: (first.toList
    ++ ((escapeLines 0 s.toList).toList ++ (List.replicate 3 '"' ++ '\n' :: r)))) = _
  rw [readString, hfirst, basicLines_escapeLines (by decide) r (Nat.zero_le 2)]
  · exact congrArg some (Prod.ext String.ofList_toList rfl)
  · simp only [List.length_cons, List.length_append]
    omega

/-- The same without escapes. -/
theorem readString_lines {s first : String} {r : List Char}
    (hs : ∀ c ∈ s.toList, c ≠ '\n' → isStringChar c = true ∧ c ≠ '\r')
    (hshort : ShortRuns '\'' s.toList)
    (hfirst : dropFirstNewline (first.toList
        ++ (s.toList ++ (List.replicate 3 '\'' ++ '\n' :: r)))
      = s.toList ++ (List.replicate 3 '\'' ++ '\n' :: r)) :
    readString (("'''" ++ first ++ s ++ "'''").toList ++ '\n' :: r) = some (s, '\n' :: r) := by
  rw [String.toList_append, String.toList_append, String.toList_append, List.append_assoc,
    List.append_assoc, List.append_assoc]
  show readString ('\'' :: '\'' :: '\'' :: (first.toList
    ++ (s.toList ++ (List.replicate 3 '\'' ++ '\n' :: r)))) = _
  rw [readString, hfirst, literalLines_append (by decide) r hs hshort]
  · exact congrArg some (Prod.ext String.ofList_toList rfl)
  · simp only [List.length_cons, List.length_append]
    omega

theorem newline?_lines {cs : List Char} (hcs : ∀ c ∈ cs, c ≠ '\n' ∧ c ≠ '\r') (r : List Char) :
    newline? (cs ++ (List.replicate 3 '\'' ++ r)) = none := by
  cases cs with
  | nil => exact newline?_cons (by decide) (by decide)
  | cons c cs =>
    obtain ⟨hn, hr⟩ := hcs c List.mem_cons_self
    exact newline?_cons hn hr

/-- **A string is read back**, whichever form it was written in. -/
theorem readString_writeString (s : String) (r : List Char) :
    readString ((writeString s).toList ++ '\n' :: r) = some (s, '\n' :: r) := by
  have hclean : (!s.toList.any isControl) = true → ∀ c ∈ s.toList, c ≠ '\n' →
      isStringChar c = true ∧ c ≠ '\r' := by
    intro h c hc hn
    rw [Bool.not_eq_true', List.any_eq_false] at h
    have hcontrol : isControl c ≠ true := h c hc
    exact isStringChar_of_not_isControl hcontrol hn
  have hnotMem : ∀ {c : Char}, (!s.toList.contains c) = true → ∀ d ∈ s.toList, d ≠ c := by
    intro c h d hd heq
    rw [heq] at hd
    rw [List.contains_iff_mem.2 hd] at h
    exact Bool.false_ne_true h
  have hescaped : readString (("\"" ++ String.join (s.toList.map (escapeChar false)) ++ "\"").toList
      ++ '\n' :: r) = some (s, '\n' :: r) := by
    rw [String.toList_append, String.toList_append, toList_join_escapeChar, List.append_assoc]
    exact readString_escaped s r
  rw [writeString]
  split_ifs with hplain hliteral hlines hn hlines hn hn
  · exact hescaped
  · obtain ⟨hfree, hn⟩ := Bool.and_eq_true_iff.1 hliteral
    obtain ⟨hfree, hquote⟩ := Bool.and_eq_true_iff.1 hfree
    have hs : ∀ c ∈ s.toList, isStringChar c = true ∧ c ≠ '\'' := fun c hc =>
      ⟨(hclean hfree c hc (hnotMem hn c hc)).1, hnotMem hquote c hc⟩
    rw [String.toList_append, String.toList_append, List.append_assoc]
    exact readString_plain hs r
  · exact readString_escapeLines rfl
  · refine readString_escapeLines ?_
    rw [dropFirstNewline]
    show (newline? ((escapeLines 0 s.toList).toList ++ _)).getD _ = _
    rw [newline?_escapeLines (fun h => hn (List.contains_iff_mem.2 h))]
    rfl
  · obtain ⟨hfree, hruns⟩ := Bool.and_eq_true_iff.1 hlines
    have hshort := shortRuns_of_longestRun (of_decide_eq_true hruns)
    exact readString_lines (hclean hfree) hshort rfl
  · obtain ⟨hfree, hruns⟩ := Bool.and_eq_true_iff.1 hlines
    have hshort := shortRuns_of_longestRun (of_decide_eq_true hruns)
    have hs : ∀ c ∈ s.toList, c ≠ '\n' ∧ c ≠ '\r' := by
      intro c hc
      have hcn : c ≠ '\n' := fun h => hn (List.contains_iff_mem.2 (h ▸ hc))
      exact ⟨hcn, (hclean hfree c hc hcn).2⟩
    refine readString_lines (hclean hfree) hshort ?_
    rw [dropFirstNewline]
    show (newline? (s.toList ++ _)).getD _ = _
    rw [newline?_lines hs]
    rfl
  · have hfirst : ("\"\"\"\n" : String) = "\"\"\"" ++ "\n" := rfl
    rw [hfirst]
    exact readString_escapeLines rfl
  · exact hescaped

end Toml
end ScriptPool
