import Mathlib.Algebra.Ring.Nat

/-!
# Searching for a boundary bit by bit

The bits of the last accepted number, from the highest one down. The search keeps an accepted
number and a rejected one, `2 ^ bits` apart.
-/

namespace CoLinux.Lib

/-- Tries the bits below bit `k` on top of `b`. -/
def bitSearch (accepted : Nat → Bool) : Nat → Nat → Nat
  | 0, b => b
  | k + 1, b => bitSearch accepted k (if accepted (b + 2 ^ k) then b + 2 ^ k else b)

theorem bitSearch_boundary {accepted : Nat → Bool} {k b : Nat} (low : accepted b = true)
    (high : accepted (b + 2 ^ k) = false) :
    accepted (bitSearch accepted k b) = true ∧ accepted (bitSearch accepted k b + 1) = false := by
  induction k generalizing b with
  | zero => exact ⟨low, high⟩
  | succ k ih =>
    unfold bitSearch
    by_cases middle : accepted (b + 2 ^ k) = true
    · rw [if_pos middle]
      apply ih middle
      rw [Nat.add_assoc, ← Nat.two_mul, Nat.mul_comm, ← Nat.pow_succ]
      exact high
    · rw [if_neg middle]
      exact ih low (Bool.eq_false_iff.mpr middle)

theorem bitSearch_lt (accepted : Nat → Bool) (k b : Nat) :
    bitSearch accepted k b < b + 2 ^ k := by
  induction k generalizing b with
  | zero => exact Nat.lt_succ_self b
  | succ k ih =>
    have power : 2 ^ (k + 1) = 2 ^ k + 2 ^ k := by rw [Nat.pow_succ, Nat.mul_two]
    have positive := Nat.two_pow_pos k
    unfold bitSearch
    split
    · exact Nat.lt_of_lt_of_eq (ih _) (by omega)
    · exact Nat.lt_of_lt_of_le (ih _) (by omega)

/-- A search for the last number up to `m` finds `m`. -/
theorem bitSearch_eq {accepted : Nat → Bool} {m k : Nat}
    (threshold : ∀ n ≤ 2 ^ k, accepted n = true ↔ n ≤ m) (high : accepted (2 ^ k) = false) :
    bitSearch accepted k 0 = m := by
  have low : accepted 0 = true := (threshold 0 (Nat.zero_le _)).mpr (Nat.zero_le m)
  obtain ⟨last, next⟩ :=
    bitSearch_boundary low (show accepted (0 + 2 ^ k) = false by rwa [Nat.zero_add])
  have below : bitSearch accepted k 0 < 2 ^ k := by
    rw [← Nat.zero_add (2 ^ k)]
    exact bitSearch_lt accepted k 0
  have found := (threshold _ (Nat.le_of_lt below)).mp last
  have behind := mt (threshold _ below).mpr (Bool.eq_false_iff.mp next)
  omega

/-- Bits below all bits of a number are added by setting them. -/
theorem or_eq_add {n b k : Nat} (clear : 2 ^ k ∣ n) (low : b < 2 ^ k) : n ||| b = n + b := by
  obtain ⟨a, rfl⟩ := clear
  exact (Nat.two_pow_add_eq_or_of_lt low a).symm

theorem or_bit {b k : Nat} (clear : 2 ^ (k + 1) ∣ b) : b ||| 2 ^ k = b + 2 ^ k :=
  or_eq_add clear (Nat.pow_lt_pow_succ (by decide))

end CoLinux.Lib
