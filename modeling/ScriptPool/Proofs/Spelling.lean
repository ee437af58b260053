import Mathlib.Data.List.DropRight
import Mathlib.Data.Nat.Digits.Defs
import ScriptPool.Config.Basic

/-!
# How a duration may be spelled

A duration is written as a number with a unit: an optional plus, digits, optional blanks, and the
symbol of a unit or nothing at all for seconds.  There may be blanks around all of this.  A text of
that shape is a `Spelling`, and it is read if its number, and the milliseconds that it stands for,
stay below 2⁶⁴.

The reader goes about it from the other end: it takes the unit off first, and what is in front of it
is trimmed and has to be a number.  The symbols overlap, so which unit is taken off depends on the
character in front of it.  In a spelling this is a digit or a blank, never a letter, and so the unit
that is taken off is the one that was written.

## What is here

* `Trims` — a list without the blanks at its ends; there is one such list, and `trimBlanks` is it.
* `parse_of_text` — what is read where there is a spelling.
* `exists_spelling` — there is one where a number is read.
* `parse_iff_spelling` — **durations are read exactly from their spellings.**
-/

set_option autoImplicit false

namespace ScriptPool

/-! ## Trimming -/

namespace Text

/-- Without the blanks at both ends, a text is `middle`. -/
structure Trims (cs middle : List Char) : Prop where
  eq_append : ∃ front back, cs = front ++ middle ++ back
    ∧ (∀ c ∈ front, isBlank c = true) ∧ ∀ c ∈ back, isBlank c = true
  head : ∀ c ∈ middle.head?, isBlank c = false
  last : ∀ c ∈ middle.getLast?, isBlank c = false

variable {cs middle : List Char}

theorem dropWhile_isBlank (h : ∀ c ∈ cs.head?, isBlank c = false) :
    cs.dropWhile isBlank = cs := by
  cases cs with
  | nil => rfl
  | cons c cs => rw [List.dropWhile_cons_of_neg (by rw [h c rfl]; exact Bool.false_ne_true)]

theorem trimRight_append {back : List Char} (hback : ∀ c ∈ back, isBlank c = true) :
    trimRight (cs ++ back) = trimRight cs := by
  rw [trimRight, List.reverse_append,
    List.dropWhile_append_of_pos fun c hc => hback c (List.mem_reverse.1 hc), trimRight]

/-- Text without blanks at its ends is left as it is. -/
theorem trimBlanks_eq_self (hhead : ∀ c ∈ cs.head?, isBlank c = false)
    (hlast : ∀ c ∈ cs.getLast?, isBlank c = false) : trimBlanks cs = cs := by
  have hreverse : ∀ c ∈ cs.reverse.head?, isBlank c = false := by
    rwa [List.head?_reverse]
  rw [trimBlanks, trimRight, dropWhile_isBlank hhead, dropWhile_isBlank hreverse,
    List.reverse_reverse]

theorem Trims.refl (hhead : ∀ c ∈ cs.head?, isBlank c = false)
    (hlast : ∀ c ∈ cs.getLast?, isBlank c = false) : Trims cs cs :=
  ⟨⟨[], [], (List.append_nil cs).symm, List.forall_mem_nil _, List.forall_mem_nil _⟩, hhead, hlast⟩

/-- There is only one way to trim a text. -/
theorem Trims.trimBlanks_eq (h : Trims cs middle) : trimBlanks cs = middle := by
  obtain ⟨front, back, rfl, hfront, hback⟩ := h.eq_append
  rw [trimBlanks, List.append_assoc, List.dropWhile_append_of_pos hfront]
  cases middle with
  | nil =>
    have hall : back.dropWhile isBlank = [] := List.dropWhile_eq_nil_iff.2 hback
    rw [List.nil_append, hall]
    rfl
  | cons c rest =>
    have hkept : ∀ b ∈ (c :: rest ++ back).head?, isBlank b = false := h.head
    rw [dropWhile_isBlank hkept, trimRight_append hback]
    exact (congrArg trimRight (dropWhile_isBlank h.head)).symm.trans
      (trimBlanks_eq_self h.head h.last)

theorem trims_trimBlanks (cs : List Char) : Trims cs (trimBlanks cs) := by
  -- `trimRight` is the library's `rdropWhile`
  have hright : trimBlanks cs ++ (cs.dropWhile isBlank).rtakeWhile isBlank
      = cs.dropWhile isBlank := List.rdropWhile_append_rtakeWhile
  refine ⟨⟨cs.takeWhile isBlank, (cs.dropWhile isBlank).rtakeWhile isBlank, ?_, ?_, ?_⟩, ?_, ?_⟩
  · rw [List.append_assoc, hright, List.takeWhile_append_dropWhile]
  · exact fun c hc => List.mem_takeWhile_imp hc
  · exact fun c hc => List.mem_rtakeWhile_imp hc
  · intro c hc
    have hhead : (cs.dropWhile isBlank).head? = some c := by
      rw [← hright, List.head?_append, hc]
      rfl
    have hnot := List.head?_dropWhile_not isBlank cs
    rwa [hhead] at hnot
  · intro c hc
    have hlast : ((cs.dropWhile isBlank).reverse.dropWhile isBlank).head? = some c := by
      rwa [trimBlanks, trimRight, List.getLast?_reverse] at hc
    have hnot := List.head?_dropWhile_not isBlank (cs.dropWhile isBlank).reverse
    rwa [hlast] at hnot

theorem isBlank_of_isDigit {c : Char} (h : c.isDigit = true) : isBlank c = false := by
  have hc : 48 ≤ c.toNat ∧ c.toNat ≤ 57 := by
    simpa [Char.isDigit, UInt32.le_iff_toNat_le] using h
  simp only [isBlank, Bool.or_eq_false_iff, Bool.and_eq_false_iff, decide_eq_false_iff_not]
  omega

end Text

namespace Duration

open Text

/-! ## Numbers and units

The symbol `s` ends the symbol `ms`, so the longer one is tried first.  Where a digit or a blank is
in front, the unit that is taken off is the one that was written. -/

/-- The unit that is meant where a unit may be missing. -/
def meant (unit? : Option Unit) : Unit := unit?.getD .second

/-- How a unit is written that may be missing. -/
def written (unit? : Option Unit) : List Char := (unit?.map Unit.symbol).getD []

/-- What is split off is a unit, or nothing where there is none. -/
theorem exists_splitUnit (cs : List Char) :
    ∃ unit?, cs = (splitUnit cs).1 ++ written unit? ∧ (splitUnit cs).2 = meant unit? := by
  have hreverse : cs = cs.reverse.reverse := (List.reverse_reverse cs).symm
  rw [splitUnit]
  split
  · rename_i r h
    exact ⟨some .millisecond, by rw [hreverse, h]; simp [written, Unit.symbol], rfl⟩
  · rename_i r _ h
    exact ⟨some .second, by rw [hreverse, h]; simp [written, Unit.symbol], rfl⟩
  · rename_i r h
    exact ⟨some .minute, by rw [hreverse, h]; simp [written, Unit.symbol], rfl⟩
  · rename_i r h
    exact ⟨some .hour, by rw [hreverse, h]; simp [written, Unit.symbol], rfl⟩
  · exact ⟨none, (List.append_nil cs).symm, rfl⟩

/-- Behind a text without the letters of units, the unit is found that stands there. -/
theorem splitUnit_append {front : List Char} (hs : 's' ∉ front) (hm : 'm' ∉ front)
    (hh : 'h' ∉ front) (unit? : Option Unit) :
    splitUnit (front ++ written unit?) = (front, meant unit?) := by
  have hmem : ∀ {c r}, front.reverse = c :: r → c ∈ front :=
    fun heq => List.mem_reverse.1 (heq ▸ List.mem_cons_self)
  rw [splitUnit, List.reverse_append]
  cases unit? with
  | none =>
    have hnone : (written none).reverse ++ front.reverse = front.reverse := rfl
    rw [hnone]
    split
    · exact absurd (hmem ‹_›) hs
    · exact absurd (hmem ‹_›) hs
    · exact absurd (hmem ‹_›) hm
    · exact absurd (hmem ‹_›) hh
    · exact Prod.ext (List.append_nil front) rfl
  | some unit =>
    cases unit with
    | millisecond => exact Prod.ext (List.reverse_reverse front) rfl
    | second =>
      -- what stands in front of the `s` is not the `m` of milliseconds
      have hsecond : (written (some .second)).reverse ++ front.reverse = 's' :: front.reverse := rfl
      rw [hsecond]
      split
      · rename_i heq
        exact absurd (hmem (List.cons.inj heq).2) hm
      · rename_i heq
        rw [← (List.cons.inj heq).2, List.reverse_reverse]
        rfl
      · rename_i heq
        cases heq
      · rename_i heq
        cases heq
      · rename_i heq _ _
        exact absurd rfl (heq _)
    | minute => exact Prod.ext (List.reverse_reverse front) rfl
    | hour => exact Prod.ext (List.reverse_reverse front) rfl

/-- The number that digits make up, the last of them counting ones. -/
def numberOf (digits : List Char) : Nat :=
  Nat.ofDigits 10 (digits.reverse.map fun c => c.toNat - '0'.toNat)

theorem digitsValue_eq (digits : List Char) : digitsValue digits = numberOf digits := by
  induction digits using List.reverseRecOn with
  | nil => rfl
  | append_singleton digits c ih =>
    have hvalue : digitsValue (digits ++ [c]) = 10 * digitsValue digits + (c.toNat - '0'.toNat) :=
      List.foldl_append
    rw [hvalue, ih, numberOf, numberOf, List.reverse_append, List.reverse_singleton,
      List.singleton_append, List.map_cons, Nat.ofDigits_cons, Nat.add_comm]

/-- **Digits, and nothing else, are a number.** -/
theorem natural?_eq_some {cs : List Char} {n : Nat} :
    natural? cs = some n ↔ cs ≠ [] ∧ (∀ c ∈ cs, c.isDigit = true) ∧ n = numberOf cs := by
  rw [natural?, ← digitsValue_eq]
  constructor
  · intro hn
    split at hn
    case isTrue h => exact ⟨h.1, List.all_eq_true.1 h.2, (Option.some.inj hn).symm⟩
    case isFalse => cases hn
  · rintro ⟨hne, hdigit, rfl⟩
    exact if_pos ⟨hne, List.all_eq_true.2 hdigit⟩

/-- How a plus is written that may be missing. -/
def plusSign (plus : Bool) : List Char := if plus then ['+'] else []

theorem exists_dropPlus (cs : List Char) : ∃ plus, cs = plusSign plus ++ dropPlus cs := by
  rw [dropPlus.eq_def]
  split
  · exact ⟨true, rfl⟩
  · exact ⟨false, rfl⟩

/-- One plus is dropped, where there is one. -/
theorem dropPlus_append {digits : List Char} (h : '+' ∉ digits) (plus : Bool) :
    dropPlus (plusSign plus ++ digits) = digits := by
  cases plus with
  | true => rfl
  | false =>
    show dropPlus digits = digits
    rw [dropPlus.eq_def]
    split
    · exact absurd List.mem_cons_self h
    · rfl

/-! ## Spellings -/

/-- The parts of a text that a duration is written with. -/
structure Spelling where
  plus : Bool
  digits : List Char
  blanks : List Char
  unit? : Option Unit
  ne_nil : digits ≠ []
  isDigit : ∀ c ∈ digits, c.isDigit = true
  isBlank : ∀ c ∈ blanks, Text.isBlank c = true

namespace Spelling

variable {p : Spelling}

/-- The number, as it is written. -/
def signed (p : Spelling) : List Char := plusSign p.plus ++ p.digits

/-- The text. -/
def text (p : Spelling) : List Char := p.signed ++ p.blanks ++ written p.unit?

/-- The milliseconds that the text stands for. -/
def millis (p : Spelling) : Nat := numberOf p.digits * (meant p.unit?).millis

/-- Do the number and the milliseconds fit in 64 bits? -/
def Fits (p : Spelling) : Prop := numberOf p.digits < 2 ^ 64 ∧ p.millis < 2 ^ 64

instance (p : Spelling) : Decidable p.Fits := inferInstanceAs (Decidable (_ ∧ _))

theorem not_mem_front {c : Char} (hplus : c ≠ '+') (hdigit : c.isDigit = false)
    (hblank : Text.isBlank c = false) : c ∉ p.signed ++ p.blanks := by
  intro h
  rcases List.mem_append.1 h with h | h
  · rcases List.mem_append.1 h with h | h
    · rw [plusSign] at h
      split at h
      · exact hplus (List.mem_singleton.1 h)
      · cases h
    · exact Bool.false_ne_true (hdigit.symm.trans (p.isDigit c h))
  · exact Bool.false_ne_true (hblank.symm.trans (p.isBlank c h))

/-- The unit that is split off is the one that was written. -/
theorem splitUnit_text (p : Spelling) : splitUnit p.text = (p.signed ++ p.blanks, meant p.unit?) :=
  splitUnit_append (not_mem_front (by decide) (by decide) (by decide))
    (not_mem_front (by decide) (by decide) (by decide))
    (not_mem_front (by decide) (by decide) (by decide)) p.unit?

theorem trims_signed (p : Spelling) : Trims (p.signed ++ p.blanks) p.signed where
  eq_append := ⟨[], p.blanks, rfl, List.forall_mem_nil _, p.isBlank⟩
  head := by
    intro c hc
    rw [signed, plusSign] at hc
    split at hc
    · obtain rfl := Option.some.inj hc
      rfl
    · exact isBlank_of_isDigit (p.isDigit c (List.mem_of_mem_head? hc))
  last := by
    intro c hc
    rw [signed, List.getLast?_append_of_ne_nil _ p.ne_nil] at hc
    exact isBlank_of_isDigit (p.isDigit c (List.mem_of_mem_getLast? hc))

/-- The number is read that was written. -/
theorem natural?_signed (p : Spelling) :
    natural? (dropPlus p.signed) = some (numberOf p.digits) := by
  have hplus : '+' ∉ p.digits := fun h => absurd (p.isDigit _ h) (by decide)
  rw [signed, dropPlus_append hplus]
  exact natural?_eq_some.2 ⟨p.ne_nil, p.isDigit, rfl⟩

end Spelling

/-- **What is read where there is a spelling.** -/
theorem parse_of_text {s : String} {p : Spelling} (h : Trims s.toList p.text) :
    parse s = if p.Fits then .ok (ofMillis p.millis) else .error (String.ofList p.text) := by
  rw [parse, h.trimBlanks_eq, p.splitUnit_text]
  dsimp only
  rw [p.trims_signed.trimBlanks_eq, p.natural?_signed]
  rfl

/-- **Where a number is read, there is a spelling.**  A text that is trimmed has no blanks in front
of its number. -/
theorem exists_spelling {text : List Char} {n : Nat}
    (hhead : ∀ c ∈ text.head?, Text.isBlank c = false)
    (h : natural? (dropPlus (trimBlanks (splitUnit text).1)) = some n) :
    ∃ p : Spelling, p.text = text := by
  obtain ⟨unit?, hunit, -⟩ := exists_splitUnit text
  obtain ⟨front, back, hfront, hblank, hback⟩ := (trims_trimBlanks (splitUnit text).1).eq_append
  obtain ⟨plus, hplus⟩ := exists_dropPlus (trimBlanks (splitUnit text).1)
  obtain ⟨hne, hdigit, -⟩ := natural?_eq_some.1 h
  have hnil : front = [] := by
    cases front with
    | nil => rfl
    | cons c front =>
      have hc : c ∈ text.head? := by
        rw [hunit, hfront]
        rfl
      exact absurd (hblank c List.mem_cons_self) (by simp [hhead c hc])
  refine ⟨⟨plus, _, back, unit?, hne, hdigit, hback⟩, ?_⟩
  rw [hnil, List.nil_append] at hfront
  rw [Spelling.text, Spelling.signed, ← hplus, ← hfront, ← hunit]

/-- A text is a spelling that fits, and is read as such, or it is refused. -/
theorem parse_cases {s : String} {text : List Char} (h : Trims s.toList text) :
    (∃ p : Spelling, p.text = text ∧ p.Fits ∧ parse s = .ok (ofMillis p.millis))
      ∨ (∀ p : Spelling, p.text = text → ¬ p.Fits) ∧ parse s = .error (String.ofList text) := by
  by_cases hsome : ∃ p : Spelling, p.text = text
  · obtain ⟨p, rfl⟩ := hsome
    have hread := parse_of_text h
    by_cases hfits : p.Fits
    · rw [if_pos hfits] at hread
      exact .inl ⟨p, rfl, hfits, hread⟩
    · rw [if_neg hfits] at hread
      refine .inr ⟨fun q hq hqfits => ?_, hread⟩
      -- another spelling of the same text is read the same way
      have hagain := parse_of_text (hq ▸ h)
      rw [if_pos hqfits, hread] at hagain
      cases hagain
  · refine .inr ⟨fun p hp => absurd ⟨p, hp⟩ hsome, ?_⟩
    rw [parse, h.trimBlanks_eq]
    dsimp only
    cases hnatural : natural? (dropPlus (trimBlanks (splitUnit text).1)) with
    | none => rfl
    | some n => exact absurd (exists_spelling h.head hnatural) hsome

/-- **Durations are read exactly from their spellings.**  The blanks around a text do not count.
Without them it is read if it is a spelling that fits, as the milliseconds that this stands for; and
if it is not, it is what the error is about. -/
theorem parse_iff_spelling (s : String) :
    ∃ text, Trims s.toList text
      ∧ (∀ d, parse s = .ok d ↔ ∃ p : Spelling, p.text = text ∧ p.Fits ∧ d = ofMillis p.millis)
      ∧ ∀ e, (parse s).mapError ConfigError.invalidDuration = .error e ↔
          (∀ p : Spelling, p.text = text → ¬ p.Fits)
            ∧ e = .invalidDuration (String.ofList text) := by
  have htrims := trims_trimBlanks s.toList
  refine ⟨_, htrims, fun d => ⟨fun h => ?_, fun ⟨p, htext, hfits, hd⟩ => ?_⟩,
    fun e => ⟨fun h => ?_, fun ⟨hnone, he⟩ => ?_⟩⟩
  · obtain ⟨p, htext, hfits, hread⟩ | ⟨-, hread⟩ := parse_cases htrims
    · exact ⟨p, htext, hfits, Except.ok.inj (h.symm.trans hread)⟩
    · cases h.symm.trans hread
  · rw [hd, parse_of_text (htext ▸ htrims), if_pos hfits]
  · obtain ⟨p, -, -, hread⟩ | ⟨hnone, hread⟩ := parse_cases htrims
    · rw [hread] at h
      cases h
    · rw [hread] at h
      exact ⟨hnone, (Except.error.inj h).symm⟩
  · obtain ⟨p, htext, hfits, -⟩ | ⟨-, hread⟩ := parse_cases htrims
    · exact absurd hfits (hnone p htext)
    · rw [hread, he]
      rfl

end Duration
end ScriptPool
