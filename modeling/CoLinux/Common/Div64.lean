import CoLinux.Common.Types
import CoLinux.Lib.ShiftSubtract

/-!
# Division of 64-bit numbers (`common/common.h`)

`co_div64_32` takes the high word of the quotient with a division of words, and the rest with two
loops that shift and subtract.
-/

namespace CoLinux

open Lib

/-- The part before the loops of `co_div64_32`: the high word of the quotient, shifted, and what is
left to divide. -/
def coDiv64Reduce (n base : Nat) : Nat × Nat :=
  let high := n / wordSize
  if base ≤ high then
    (high / base * wordSize % quadSize,
      (n + quadSize - high / base * base % wordSize * wordSize % quadSize) % quadSize)
  else (0, n)

/-- `co_div64_32`: the quotient that it stores and the remainder that it returns. -/
def coDiv64_32 (n base : Nat) : Nat × Nat :=
  let reduced := coDiv64Reduce n base
  let scaled := scaleUp quadSize reduced.2 base 1
  let divided := subtractDown quadSize scaled.1 scaled.2 reduced.2 reduced.1
  (divided.1, divided.2 % wordSize)

theorem quadSize_eq : quadSize = wordSize * wordSize := by
  decide

/-- Reducing takes whole multiples of the divisor away. -/
theorem coDiv64Reduce_spec {n base : Nat} (hn : n < quadSize) (pos : 0 < base) :
    (coDiv64Reduce n base).2 < quadSize ∧
      (coDiv64Reduce n base).1 + (coDiv64Reduce n base).2 / base = n / base ∧
      (coDiv64Reduce n base).2 % base = n % base := by
  rw [quadSize_eq] at hn
  have high : n / wordSize < wordSize := Nat.div_lt_of_lt_mul hn
  unfold coDiv64Reduce
  by_cases large : base ≤ n / wordSize
  · simp only [if_pos large]
    generalize hq : n / wordSize / base = q
    have fits : q * base ≤ n / wordSize := hq ▸ Nat.div_mul_le_self _ _
    have whole : q * base * wordSize ≤ n :=
      Nat.le_trans (Nat.mul_le_mul_right _ fits) (Nat.div_mul_le_self _ _)
    have le : q * wordSize ≤ q * base * wordSize :=
      Nat.mul_le_mul_right _ (Nat.le_mul_of_pos_right _ pos)
    rw [quadSize_eq, Nat.mod_eq_of_lt (Nat.lt_of_le_of_lt (Nat.le_trans le whole) hn),
      Nat.mod_eq_of_lt (Nat.lt_of_le_of_lt fits high),
      Nat.mod_eq_of_lt (Nat.lt_of_le_of_lt whole hn), Nat.add_comm n, Nat.add_sub_assoc whole,
      Nat.add_mod_left, Nat.mod_eq_of_lt (Nat.lt_of_le_of_lt (Nat.sub_le _ _) hn)]
    have shape : q * base * wordSize = base * (q * wordSize) := by
      rw [Nat.mul_comm q, Nat.mul_assoc]
    refine ⟨Nat.lt_of_le_of_lt (Nat.sub_le _ _) hn, ?_, ?_⟩
    · conv_rhs => rw [← Nat.sub_add_cancel whole, shape]
      rw [Nat.add_mul_div_left _ _ pos, Nat.add_comm, shape]
    · conv_rhs => rw [← Nat.sub_add_cancel whole, shape]
      rw [Nat.add_mul_mod_self_left, shape]
  · simp only [if_neg large, Nat.zero_add]
    rw [quadSize_eq]
    exact ⟨hn, trivial, trivial⟩

/-- `co_div64_32` divides. -/
theorem coDiv64_32_eq {n base : Nat} (hn : n < quadSize) (pos : 0 < base) (hb : base < wordSize) :
    coDiv64_32 n base = (n / base, n % base) := by
  obtain ⟨small, quotient, remainder⟩ := coDiv64Reduce_spec hn pos
  have word : base < quadSize := Nat.lt_trans hb (by decide)
  have fits : (coDiv64Reduce n base).1 + (coDiv64Reduce n base).2 / base < quadSize :=
    quotient ▸ Nat.lt_of_le_of_lt (Nat.div_le_self _ _) hn
  simp only [coDiv64_32]
  rw [shiftSubtract_eq (by decide) pos word small fits, quotient, remainder,
    Nat.mod_eq_of_lt (Nat.lt_trans (Nat.mod_lt _ pos) hb)]

end CoLinux
