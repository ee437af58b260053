import ScriptPool.Proofs.Decimal.Digits
import ScriptPool.Proofs.Spelling

/-!
# Durations in configuration files

What is written is a number in the largest unit that divides the span, so nothing is lost of a span
of whole milliseconds, and reading it gives the span back.

## What is here

* `parse_digits` — a number with a unit is read.
* `parse_format_of_lt` — what is written is read back, without what is below a millisecond.
* `IsLongest` — the unit in which a span is written: the longest that divides it.
* `written_and_read_back` — **spans survive being written and read.**
-/

set_option autoImplicit false

namespace ScriptPool
namespace Duration

open Text

/-- The spelling of a number with a unit that has nothing in it beyond the two. -/
def Spelling.plain (n : Nat) (unit : Unit) : Spelling where
  plus := false
  digits := Nat.toDigits 10 n
  blanks := []
  unit? := some unit
  ne_nil := Nat.toDigits_ne_nil
  isDigit _ hc := Decimal.isDigit_of_mem_toDigits hc
  isBlank := List.forall_mem_nil _

theorem isBlank_of_mem_symbol {unit : Unit} {c : Char} (h : c ∈ unit.symbol) :
    isBlank c = false := by
  cases unit with
  | millisecond => rcases List.mem_pair.1 h with rfl | rfl <;> rfl
  | second => rw [List.mem_singleton.1 h]; rfl
  | minute => rw [List.mem_singleton.1 h]; rfl
  | hour => rw [List.mem_singleton.1 h]; rfl

theorem Spelling.text_plain (n : Nat) (unit : Unit) :
    (plain n unit).text = Nat.toDigits 10 n ++ unit.symbol :=
  congrArg (· ++ unit.symbol) (List.append_nil _)

theorem isBlank_of_mem_plain {n : Nat} {unit : Unit} {c : Char}
    (h : c ∈ (Spelling.plain n unit).text) : isBlank c = false := by
  rw [Spelling.text_plain] at h
  rcases List.mem_append.1 h with h | h
  · exact isBlank_of_isDigit (Decimal.isDigit_of_mem_toDigits h)
  · exact isBlank_of_mem_symbol h

/-- A number with a unit is read. -/
theorem parse_digits {n : Nat} {unit : Unit} (hn : n < bound) (hbound : n * unit.millis < bound) :
    parse (Decimal.digitText n ++ String.ofList unit.symbol)
      = .ok (ofMillis (n * unit.millis)) := by
  have htext : (Decimal.digitText n ++ String.ofList unit.symbol).toList
      = (Spelling.plain n unit).text := by
    rw [String.toList_append, Decimal.toList_digitText, String.toList_ofList, Spelling.text_plain]
  have htrims : Trims (Decimal.digitText n ++ String.ofList unit.symbol).toList
      (Spelling.plain n unit).text := by
    rw [htext]
    exact .refl (fun c hc => isBlank_of_mem_plain (List.mem_of_mem_head? hc))
      fun c hc => isBlank_of_mem_plain (List.mem_of_mem_getLast? hc)
  have hnumber : numberOf (Nat.toDigits 10 n) = n := by
    rw [← digitsValue_eq]
    exact Nat.ofDigitChars_ten_toDigits
  have hmillis : (Spelling.plain n unit).millis = n * unit.millis :=
    congrArg (· * unit.millis) hnumber
  have hfits : (Spelling.plain n unit).Fits := ⟨hnumber.trans_lt hn, hmillis.trans_lt hbound⟩
  rw [parse_of_text htrims, if_pos hfits, hmillis]

theorem largestUnit_dvd (ms : Nat) : (largestUnit ms).millis ∣ ms := by
  rw [largestUnit]
  split
  · exact Nat.dvd_of_mod_eq_zero ‹_›
  · split
    · exact Nat.dvd_of_mod_eq_zero ‹_›
    · split
      · exact Nat.dvd_of_mod_eq_zero ‹_›
      · exact Nat.one_dvd ms

/-- A span is written as a number of units that add up to its milliseconds. -/
theorem exists_format (d : Duration) : ∃ n unit,
    d.format = Decimal.digitText n ++ String.ofList (Unit.symbol unit)
      ∧ n * unit.millis = d.millis := by
  rw [format]
  split
  · rename_i h
    exact ⟨0, .second, rfl, by rw [h, Nat.zero_mul]⟩
  · exact ⟨_, _, rfl, Nat.div_mul_cancel (largestUnit_dvd d.millis)⟩

theorem ofMillis_millis {d : Duration} (h : d.nanos % 1000000 = 0) : ofMillis d.millis = d := by
  obtain ⟨nanos⟩ := d
  exact congrArg Duration.mk (Nat.div_mul_cancel (Nat.dvd_of_mod_eq_zero h))

/-- **What is written for a span is read back** as its whole milliseconds. -/
theorem parse_format_of_lt {d : Duration} (hbound : d.millis < bound) :
    parse d.format = .ok (ofMillis d.millis) := by
  obtain ⟨n, unit, htext, hn⟩ := exists_format d
  have hle : n ≤ d.millis := by
    rw [← hn]
    exact Nat.le_mul_of_pos_right n (by cases unit <;> decide)
  rw [htext, parse_digits (Nat.lt_of_le_of_lt hle hbound) (hn ▸ hbound), hn]

/-- A span of whole milliseconds is read back as it is. -/
theorem parse_format {d : Duration} (hwhole : d.nanos % 1000000 = 0) (hbound : d.millis < bound) :
    parse d.format = .ok d := by
  rw [parse_format_of_lt hbound, ofMillis_millis hwhole]

/-! ## The unit -/

/-- No longer unit divides a span than the one that is chosen for it. -/
theorem millis_le_largestUnit {ms : Nat} {other : Unit} (h : other.millis ∣ ms) :
    other.millis ≤ (largestUnit ms).millis := by
  have hmod : ms % other.millis = 0 := Nat.mod_eq_zero_of_dvd h
  rw [largestUnit]
  split
  · cases other <;> decide
  · rename_i hhour
    split
    · cases other with
      | hour => exact absurd hmod hhour
      | _ => decide
    · rename_i hminute
      split
      · cases other with
        | hour => exact absurd hmod hhour
        | minute => exact absurd hmod hminute
        | _ => decide
      · rename_i hsecond
        cases other with
        | hour => exact absurd hmod hhour
        | minute => exact absurd hmod hminute
        | second => exact absurd hmod hsecond
        | millisecond => exact Nat.le_refl _

/-- `unit` is the longest unit that a number of milliseconds is a multiple of. -/
structure IsLongest (unit : Unit) (ms : Nat) : Prop where
  dvd : unit.millis ∣ ms
  longest : ∀ other : Unit, other.millis ∣ ms → other.millis ≤ unit.millis

theorem isLongest_largestUnit (ms : Nat) : IsLongest (largestUnit ms) ms :=
  ⟨largestUnit_dvd ms, fun _ h => millis_le_largestUnit h⟩

/-! ## What is accepted -/

/-- What is read is a number of whole milliseconds that stays below the bound. -/
theorem exists_ofMillis {s : String} {d : Duration} (h : parse s = .ok d) :
    ∃ ms < bound, d = ofMillis ms := by
  rw [parse] at h
  dsimp only at h
  split at h
  · cases h
  · split at h
    · rename_i hbound
      exact ⟨_, hbound.2, (Except.ok.inj h).symm⟩
    · cases h

theorem millis_ofMillis (ms : Nat) : (ofMillis ms).millis = ms :=
  Nat.mul_div_cancel ms (by decide)

/-- **Spans survive being written and read.**  What is written for a span is read as its whole
milliseconds, up to the largest number of milliseconds that can be read at all.  A span of a
millisecond or more is written in the longest unit that divides it, and less than a millisecond is
written as no seconds.  Whatever text was accepted, writing the span that it stands for and reading
that gives the same span. -/
theorem written_and_read_back :
    (∀ d : Duration, d.millis < bound → parse d.format = .ok (ofMillis d.millis))
    ∧ (∀ d : Duration, 0 < d.millis → ∃ unit, IsLongest unit d.millis
        ∧ d.format = Decimal.digitText (d.millis / unit.millis) ++ String.ofList unit.symbol)
    ∧ (∀ d : Duration, d.millis = 0 → d.format = "0s")
    ∧ ∀ (s : String) (d : Duration), parse s = .ok d → parse d.format = .ok d := by
  refine ⟨fun d h => parse_format_of_lt h, fun d h => ?_, fun d h => if_pos h, fun s d h => ?_⟩
  · exact ⟨largestUnit d.millis, isLongest_largestUnit d.millis, if_neg (Nat.ne_of_gt h)⟩
  · obtain ⟨ms, hms, rfl⟩ := exists_ofMillis h
    rw [parse_format_of_lt (by rwa [millis_ofMillis]), millis_ofMillis]

/-- What is below a millisecond is dropped; the largest number of milliseconds is read back; a
minute and a half is written in seconds; and two minutes stay two minutes. -/
theorem written_and_read_back_bounds :
    parse (⟨1999999⟩ : Duration).format = .ok (ofMillis 1)
    ∧ parse (ofMillis (bound - 1)).format = .ok (ofMillis (bound - 1))
    ∧ (∃ unit, IsLongest unit (ofMillis 90000).millis ∧ (ofMillis 90000).format
        = Decimal.digitText ((ofMillis 90000).millis / unit.millis) ++ String.ofList unit.symbol)
    ∧ zero.format = "0s"
    ∧ parse (ofMillis 120000).format = .ok (ofMillis 120000) := by
  obtain ⟨hread, hunit, hempty, hagain⟩ := written_and_read_back
  refine ⟨hread ⟨1999999⟩ (by decide), ?_, hunit (ofMillis 90000) (by decide),
    hempty zero (by decide), hagain " +2 m" (ofMillis 120000) (by rfl)⟩
  have hlast := hread (ofMillis (bound - 1))
  rw [millis_ofMillis] at hlast
  exact hlast (by decide)

/-- No time at all is a number of whole hours, and it is not written in hours. -/
theorem empty_not_in_hours :
    IsLongest .hour zero.millis
    ∧ ¬ ∃ unit, IsLongest unit zero.millis
        ∧ zero.format = Decimal.digitText (zero.millis / unit.millis)
          ++ String.ofList unit.symbol := by
  have hlongest : IsLongest .hour zero.millis := isLongest_largestUnit 0
  refine ⟨hlongest, fun ⟨unit, h, htext⟩ => ?_⟩
  have hle := h.longest .hour hlongest.dvd
  cases unit with
  | hour => exact absurd htext (by decide +kernel)
  | _ => exact absurd hle (by decide)

end Duration
end ScriptPool
