import Mathlib.Algebra.Order.Ring.Nat

/-!
# Division by shifting and subtracting

Division of machine integers of `word` values with the two usual loops: the divisor is doubled
until it exceeds the dividend, then it is halved again, and subtracted wherever it fits.
-/

namespace CoLinux.Lib

variable (word : Nat)

/-- Double `b` and `d` while `b` is positive as a signed number and below `n`. -/
def scaleUp (n b d : Nat) : Nat × Nat :=
  if 0 < b ∧ b < word / 2 ∧ b < n then scaleUp n ((b + b) % word) ((d + d) % word) else (b, d)
termination_by n - b
decreasing_by
  rename_i h
  rw [Nat.mod_eq_of_lt (by omega)]
  omega

/-- Halve `b` and `d` until `d` is 0, and subtract `b` wherever it fits. Returns the quotient, with
`q` added, and the remainder. -/
def subtractDown (b d n q : Nat) : Nat × Nat :=
  let n' := if b ≤ n then n - b else n
  let q' := if b ≤ n then (q + d) % word else q
  if d / 2 = 0 then (q', n') else subtractDown (b / 2) (d / 2) n' q'
termination_by d
decreasing_by omega

variable {word}

/-- The doubled divisor is the divisor at some power of two, its double exceeds the dividend, and
nothing has wrapped. -/
theorem scaleUp_spec {base n : Nat} (even : 2 ∣ word) (pos : 0 < base) (hn : n < word) (k : Nat)
    (hb : base * 2 ^ k < word) :
    ∃ j, scaleUp word n (base * 2 ^ k) (2 ^ k) = (base * 2 ^ j, 2 ^ j) ∧
      n < 2 * (base * 2 ^ j) := by
  generalize hm : n - base * 2 ^ k = m
  induction m using Nat.strongRecOn generalizing k with
  | ind m ih =>
    have positive : 0 < base * 2 ^ k := Nat.mul_pos pos (Nat.two_pow_pos k)
    have le : 2 ^ k ≤ base * 2 ^ k := Nat.le_mul_of_pos_left _ pos
    have next : base * 2 ^ (k + 1) = base * 2 ^ k + base * 2 ^ k := by
      rw [Nat.pow_succ, Nat.mul_two, Nat.mul_add]
    have double : 2 ^ (k + 1) = 2 ^ k + 2 ^ k := by
      rw [Nat.pow_succ, Nat.mul_two]
    rw [scaleUp]
    by_cases more : 0 < base * 2 ^ k ∧ base * 2 ^ k < word / 2 ∧ base * 2 ^ k < n
    · rw [if_pos more, Nat.mod_eq_of_lt (by omega), Nat.mod_eq_of_lt (by omega), ← next, ← double]
      exact ih (n - base * 2 ^ (k + 1)) (by omega) (k + 1) (by omega) rfl
    · rw [if_neg more]
      exact ⟨k, rfl, by omega⟩

/-- The loop that halves divides what is below twice the doubled divisor. -/
theorem subtractDown_eq {base n q : Nat} (pos : 0 < base) (k : Nat)
    (hn : n < 2 * (base * 2 ^ k)) (hq : q + n / base < word) :
    subtractDown word (base * 2 ^ k) (2 ^ k) n q = (q + n / base, n % base) := by
  induction k generalizing n q with
  | zero =>
    rw [Nat.pow_zero, Nat.mul_one] at hn ⊢
    rw [subtractDown, if_pos (by decide)]
    by_cases fits : base ≤ n
    · have one : n / base = 1 := Nat.div_eq_of_lt_le (by omega) (by omega)
      rw [if_pos fits, if_pos fits, ← one, Nat.mod_eq_of_lt hq, Nat.mod_eq_sub_mod fits,
        Nat.mod_eq_of_lt (by omega)]
    · rw [if_neg fits, if_neg fits, Nat.div_eq_of_lt (by omega), Nat.mod_eq_of_lt (by omega),
        Nat.add_zero]
  | succ k ih =>
    have next : base * 2 ^ (k + 1) = 2 * (base * 2 ^ k) := by
      rw [Nat.pow_succ, ← Nat.mul_assoc, Nat.mul_comm]
    have half : base * 2 ^ (k + 1) / 2 = base * 2 ^ k := by
      omega
    have halfUnit : 2 ^ (k + 1) / 2 = 2 ^ k := by
      rw [Nat.pow_succ, Nat.mul_div_cancel _ Nat.two_pos]
    have unit : 2 ^ k ≠ 0 := (Nat.two_pow_pos k).ne'
    rw [subtractDown, half, halfUnit, if_neg unit]
    by_cases fits : base * 2 ^ (k + 1) ≤ n
    · have quotient : n / base = 2 ^ (k + 1) + (n - base * 2 ^ (k + 1)) / base := by
        conv_lhs => rw [← Nat.sub_add_cancel fits]
        rw [Nat.add_mul_div_left _ _ pos, Nat.add_comm]
      have remainder : n % base = (n - base * 2 ^ (k + 1)) % base := by
        conv_lhs => rw [← Nat.sub_add_cancel fits]
        rw [Nat.add_mul_mod_self_left]
      rw [quotient, ← Nat.add_assoc] at hq
      have here : q + 2 ^ (k + 1) < word := Nat.lt_of_le_of_lt (Nat.le_add_right _ _) hq
      rw [if_pos fits, if_pos fits, Nat.mod_eq_of_lt here, ih (by omega) hq, quotient, remainder,
        Nat.add_assoc]
    · rw [if_neg fits, if_neg fits]
      exact ih (by omega) hq

/-- The two loops divide. -/
theorem shiftSubtract_eq {base n q : Nat} (even : 2 ∣ word) (pos : 0 < base) (hb : base < word)
    (hn : n < word) (hq : q + n / base < word) :
    subtractDown word (scaleUp word n base 1).1 (scaleUp word n base 1).2 n q =
      (q + n / base, n % base) := by
  obtain ⟨k, scaled, small⟩ := @scaleUp_spec word base n even pos hn 0 (by simpa using hb)
  rw [Nat.pow_zero, Nat.mul_one] at scaled
  rw [scaled]
  exact subtractDown_eq pos k small hq

end CoLinux.Lib
