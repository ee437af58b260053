import Mathlib
import ScriptPool.Decimal.Layout

/-!
# Digits as text

A decimal without an exponent is written as digits on both sides of a point.  Where the point falls
among the digits depends on the exponent: behind all of them and as many zeros as it takes, between
two of them, or in front of all of them and as many zeros.  In each case the digits, without the
point, make up the number that has to be divided by a power of ten for the decimal.

## What is here

* `IsWhole`, `Fixed` — the digits in front of the point, and all of them.
* `exists_fixed` — **what is written is such digits.**
-/

set_option autoImplicit false

namespace ScriptPool
namespace Decimal

/-- The digits in front of a point: at least one, and no zero in front of others. -/
structure IsWhole (cs : List Char) : Prop where
  ne_nil : cs ≠ []
  digits : ∀ c ∈ cs, c.isDigit = true
  leading : cs.head? = some '0' → cs.length = 1

theorem isDigit_of_mem_toDigits {n : Nat} {c : Char} (h : c ∈ Nat.toDigits 10 n) :
    c.isDigit = true := Nat.isDigit_of_mem_toDigits (by decide) (by decide) h

/-- Only zero begins with a zero. -/
theorem head?_toDigits {n : Nat} (h : n ≠ 0) : (Nat.toDigits 10 n).head? ≠ some '0' := by
  induction n using Nat.strongRecOn with
  | ind n ih =>
    rw [Nat.toDigits_eq_if (by decide)]
    split
    · intro h0
      exact h (Nat.digitChar_eq_zero.1 (Option.some.inj h0))
    · rw [List.head?_append_of_ne_nil _ Nat.toDigits_ne_nil]
      exact ih (n / 10) (by omega) (by omega)

theorem isWhole_toDigits (n : Nat) : IsWhole (Nat.toDigits 10 n) := by
  refine ⟨Nat.toDigits_ne_nil, fun c hc => isDigit_of_mem_toDigits hc, fun hhead => ?_⟩
  by_cases h : n = 0
  · rw [h, Nat.toDigits_zero, List.length_singleton]
  · exact absurd hhead (head?_toDigits h)

theorem toList_digitText (n : Nat) : (digitText n).toList = Nat.toDigits 10 n :=
  String.toList_ofList

theorem toList_zeros (n : Nat) : (zeros n).toList = List.replicate n '0' := String.toList_ofList

/-- What a decimal without an exponent is written as: digits on both sides of a point, with the
value of the decimal. -/
structure Fixed (d : Scaled) (whole places : List Char) : Prop where
  isWhole : IsWhole whole
  ne_nil : places ≠ []
  digits : ∀ c ∈ places, c.isDigit = true
  length : (places.length : Int) ≤ max 1 (-d.exponent)
  value : (Nat.ofDigitChars 10 (whole ++ places) 0 : ℚ) / 10 ^ places.length
    = d.digits * 10 ^ d.exponent

theorem isDigit_of_mem_replicate {n : Nat} {c : Char} (h : c ∈ List.replicate n '0') :
    c.isDigit = true := by
  rw [List.eq_of_mem_replicate h]
  rfl

/-- The digits of a number, with zeros behind them. -/
theorem fixed_of_nonneg {n e : Nat} (h : n = 0 → e = 0) :
    Fixed ⟨n, e⟩ (Nat.toDigits 10 n ++ List.replicate e '0') ['0'] := by
  have hvalue : Nat.ofDigitChars 10 (Nat.toDigits 10 n ++ List.replicate e '0' ++ ['0']) 0
      = 10 * (10 ^ e * n) := by
    rw [Nat.ofDigitChars_append, Nat.ofDigitChars_append, Nat.ofDigitChars_ten_toDigits,
      Nat.ofDigitChars_replicate_zero]
    exact Nat.ofDigitChars_replicate_zero (n := 1)
  refine ⟨⟨List.append_ne_nil_of_left_ne_nil Nat.toDigits_ne_nil _, fun c hc => ?_, fun hhead => ?_⟩,
    List.cons_ne_nil _ _, fun c hc => ?_, le_max_left _ _, ?_⟩
  · rcases List.mem_append.1 hc with hc | hc
    · exact isDigit_of_mem_toDigits hc
    · exact isDigit_of_mem_replicate hc
  · by_cases h0 : n = 0
    · rw [h0, h h0, Nat.toDigits_zero]
      rfl
    · rw [List.head?_append_of_ne_nil _ Nat.toDigits_ne_nil] at hhead
      exact absurd hhead (head?_toDigits h0)
  · rw [List.mem_singleton.1 hc]
    rfl
  · rw [hvalue]
    push_cast [List.length_singleton, zpow_natCast]
    ring

/-- The digits of a number, with the point between them. -/
theorem fixed_of_lt {n e : Nat} (h0 : n ≠ 0) (he : e ≠ 0) (hlt : e < (Nat.toDigits 10 n).length) :
    Fixed ⟨n, -e⟩ ((Nat.toDigits 10 n).take ((Nat.toDigits 10 n).length - e))
      ((Nat.toDigits 10 n).drop ((Nat.toDigits 10 n).length - e)) := by
  have hlength : ((Nat.toDigits 10 n).drop ((Nat.toDigits 10 n).length - e)).length = e := by
    rw [List.length_drop]
    omega
  have htake : ((Nat.toDigits 10 n).length - e) ≠ 0 := by omega
  refine ⟨⟨?_, fun c hc => isDigit_of_mem_toDigits (List.mem_of_mem_take hc), fun hhead => ?_⟩, ?_,
    fun c hc => isDigit_of_mem_toDigits (List.mem_of_mem_drop hc), ?_, ?_⟩
  · rw [Ne, List.take_eq_nil_iff, not_or]
    exact ⟨htake, Nat.toDigits_ne_nil⟩
  · rw [List.head?_take, if_neg htake] at hhead
    exact absurd hhead (head?_toDigits h0)
  · rw [← List.length_pos_iff, hlength]
    exact Nat.pos_of_ne_zero he
  · rw [hlength]
    exact le_trans (by simp) (le_max_right _ _)
  · rw [List.take_append_drop, Nat.ofDigitChars_ten_toDigits, hlength, zpow_neg, zpow_natCast,
      div_eq_mul_inv]

/-- The digits of a number behind the point, with zeros in front of them. -/
theorem fixed_of_le {n e : Nat} (hle : (Nat.toDigits 10 n).length ≤ e) :
    Fixed ⟨n, -e⟩ ['0']
      (List.replicate (e - (Nat.toDigits 10 n).length) '0' ++ Nat.toDigits 10 n) := by
  have hlength : (List.replicate (e - (Nat.toDigits 10 n).length) '0'
      ++ Nat.toDigits 10 n).length = e := by
    rw [List.length_append, List.length_replicate]
    omega
  have hvalue : Nat.ofDigitChars 10 (['0']
      ++ (List.replicate (e - (Nat.toDigits 10 n).length) '0' ++ Nat.toDigits 10 n)) 0 = n := by
    have hzero : Nat.ofDigitChars 10 ['0'] 0 = 0 := rfl
    rw [Nat.ofDigitChars_append, Nat.ofDigitChars_append, hzero, Nat.ofDigitChars_replicate_zero,
      Nat.mul_zero, Nat.ofDigitChars_ten_toDigits]
  refine ⟨⟨List.cons_ne_nil _ _, fun c hc => ?_, fun _ => rfl⟩, ?_, fun c hc => ?_, ?_, ?_⟩
  · rw [List.mem_singleton.1 hc]
    rfl
  · exact List.append_ne_nil_of_right_ne_nil _ Nat.toDigits_ne_nil
  · rcases List.mem_append.1 hc with hc | hc
    · exact isDigit_of_mem_replicate hc
    · exact isDigit_of_mem_toDigits hc
  · rw [hlength]
    exact le_trans (by simp) (le_max_right _ _)
  · rw [hvalue, hlength, zpow_neg, zpow_natCast, div_eq_mul_inv]

/-- **A decimal without an exponent is written as digits on both sides of a point.** -/
theorem exists_fixed {d : Scaled} (h : d.digits = 0 → d.exponent = 0) :
    ∃ whole places, (d.positional true).toList = whole ++ '.' :: places ∧ Fixed d whole places := by
  obtain ⟨n, exponent⟩ := d
  rw [Scaled.positional]
  dsimp only at h ⊢
  split
  · rename_i hexp
    obtain ⟨e, rfl⟩ : ∃ e : Nat, exponent = e := ⟨exponent.toNat, by omega⟩
    refine ⟨_, _, ?_, fixed_of_nonneg fun h0 => Int.natCast_eq_zero.1 (h h0)⟩
    rw [String.toList_append, String.toList_append, toList_digitText, toList_zeros,
      Int.toNat_natCast]
    rfl
  · rename_i hexp
    obtain ⟨e, rfl⟩ : ∃ e : Nat, exponent = -e := ⟨(-exponent).toNat, by omega⟩
    have hplaces : (- -(e : Int)).toNat = e := by omega
    have hlength : (digitText n).length = (Nat.toDigits 10 n).length := by
      rw [← String.length_toList, toList_digitText]
    rw [hplaces, hlength]
    split
    · rename_i hlt
      refine ⟨_, _, ?_, fixed_of_lt (fun h0 => hexp (h h0).ge) (by omega) hlt⟩
      rw [String.toList_append, String.toList_append, String.Slice.toString_eq,
        String.toList_copy_take, String.toList_copy_drop, toList_digitText, List.append_assoc]
      rfl
    · rename_i hle
      refine ⟨_, _, ?_, fixed_of_le (Nat.le_of_not_lt hle)⟩
      rw [String.toList_append, String.toList_append, toList_digitText, toList_zeros]
      rfl

end Decimal
end ScriptPool
