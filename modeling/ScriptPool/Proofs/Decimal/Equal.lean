import ScriptPool.Proofs.Decimal.Whole

/-!
# Floats that are equal

Comparing floats forgets the sign of a zero, and it finds that what is not a number equals nothing.
Apart from that, equal floats are the same (`eq_of_beq`): every other number has one form only,
which `Binary.word` gives back.
-/

set_option autoImplicit false

namespace ScriptPool
namespace Decimal

open Float.Model Float.Model.UnpackedFloat

/-- The bits that a reading was made from, unless it is not of a number. -/
def Binary.word : Binary → Nat
  | .nan => 0
  | .infinite sign => 2 ^ 63 * sign.toNat + 2047 * 2 ^ 52
  | .finite sign m q =>
      2 ^ 63 * sign.toNat + if m < 2 ^ 52 then m else (q + 1075).toNat * 2 ^ 52 + (m - 2 ^ 52)

/-- Nothing of a number is lost when it is read. -/
theorem word_read {x : Float} (h : Binary.read x ≠ .nan) :
    (Binary.read x).word = x.toBits.toNat := by
  have hlt : x.toBits.toNat < 2 ^ 64 := x.toBits.toNat_lt
  rw [Binary.read, Binary.ofBits] at h ⊢
  generalize x.toBits.toNat = word at h hlt ⊢
  have hsign : 2 ^ 63 * (decide (2 ^ 63 ≤ word)).toNat = word / 2 ^ 63 * 2 ^ 63 := by
    by_cases hneg : 2 ^ 63 ≤ word
    · rw [decide_eq_true hneg, Bool.toNat_true]
      omega
    · rw [decide_eq_false hneg, Bool.toNat_false]
      omega
  split
  · split
    · rw [Binary.word, hsign]
      omega
    · rename_i hones hfraction
      rw [if_pos hones, if_neg hfraction] at h
      exact absurd rfl h
  · split
    · rw [Binary.word, hsign, if_pos (Nat.mod_lt _ (Nat.two_pow_pos 52))]
      omega
    · rw [Binary.word, hsign, if_neg (by omega)]
      omega

/-- Numbers that are read the same are the same. -/
theorem eq_of_read {x y : Float} (h : Binary.read x = Binary.read y) (hx : Binary.read x ≠ .nan) :
    x = y := by
  have hbits : x.toBits = y.toBits := by
    rw [← UInt64.toNat_inj, ← word_read hx, ← word_read (h ▸ hx), h]
  obtain ⟨⟨a, ha⟩⟩ := x
  obtain ⟨⟨b, hb⟩⟩ := y
  obtain rfl : a = b := hbits
  rfl

/-- What compares equal is the same or zero. -/
theorem eq_of_compare {a b : UnpackedFloat} (h : a.compare b = some .eq) :
    a = b ∨ ∃ s, a = .zero s := by
  have hfinite : ∀ {m m' : Nat} {e e' : Int}, (compare e e').then (compare m m') = .eq →
      e = e' ∧ m = m' := by
    intro m m' e e' hcompare
    obtain ⟨he, hm⟩ := Ordering.then_eq_eq.1 hcompare
    exact ⟨Std.compare_eq_iff_eq.1 he, Std.compare_eq_iff_eq.1 hm⟩
  cases a with
  | notANumber => cases h
  | zero s => exact .inr ⟨s, rfl⟩
  | infinity s =>
    cases b with
    | infinity s' => cases s <;> cases s' <;> first | exact .inl rfl | cases h
    | _ => cases s <;> cases h
  | finite s m e hm =>
    cases b with
    | finite s' m' e' hm' =>
      cases s <;> cases s'
      · obtain ⟨rfl, rfl⟩ := hfinite (Ordering.swap_eq_eq.1 (Option.some.inj h))
        exact .inl rfl
      · cases h
      · cases h
      · obtain ⟨rfl, rfl⟩ := hfinite (Option.some.inj h)
        exact .inl rfl
    | infinity s' => cases s <;> cases s' <;> cases h
    | zero s' => cases s <;> cases h
    | notANumber => cases h

theorem scaledInteger?_zero (q : Int) : scaledInteger? 0 q = some 0 := by
  cases q with
  | ofNat k => rw [scaledInteger?, Nat.zero_mul]
  | negSucc k => rw [scaledInteger?, Nat.zero_mod, if_pos rfl, Nat.zero_div]

theorem integer?_of_zero {x : Float} {s : Sign} (h : x.toModel.unpack = .zero s) :
    integer? x = some 0 := by
  rw [integer?, read_eq, h, Binary.ofUnpacked]
  dsimp only
  rw [scaledInteger?_zero, Option.map_some, signed, Int.natCast_zero, Int.neg_zero, ite_self]

/-- **Equal floats are the same**, unless they are zeros. -/
theorem eq_of_beq {x y : Float} (h : (x == y) = true) (hx : integer? x ≠ some 0) : x = y := by
  rw [beq_eq, beq_iff_eq] at h
  obtain heq | ⟨s, hs⟩ := eq_of_compare h
  · refine eq_of_read (by rw [read_eq, read_eq, heq]) fun hnan => ?_
    rw [read_eq] at hnan
    cases hu : x.toModel.unpack with
    | notANumber =>
      rw [hu] at h
      cases h
    | _ =>
      rw [hu] at hnan
      cases hnan
  · exact absurd (integer?_of_zero hs) hx

end Decimal
end ScriptPool
