import Mathlib.Data.List.TakeWhile

/-!
# Numerals in text

The scan that `strtol`, `strtoul` and the conversions of `scanf` make of the beginning of a text:
blanks, a sign, the mark of a base, and as many digits as there are. `code` is the code of a
character, so that the text may consist of bytes or of characters.
-/

namespace CoLinux.Lib

variable {α : Type} (code : α → Nat)

/-- `isspace`. -/
def isBlank (c : α) : Bool := code c = 32 || 9 ≤ code c && code c ≤ 13

/-- The value of a digit or of a letter that stands for one. -/
def digitValue (c : α) : Option Nat :=
  if 48 ≤ code c ∧ code c ≤ 57 then some (code c - 48)
  else if 65 ≤ code c ∧ code c ≤ 90 then some (code c - 55)
  else if 97 ≤ code c ∧ code c ≤ 122 then some (code c - 87)
  else none

def isDigitOf (base : Nat) (c : α) : Bool := (digitValue code c).any (· < base)

/-- The number that digits stand for, the first one weighing most. -/
def numeral (base : Nat) (s : List α) : Nat :=
  s.foldl (fun n c => base * n + (digitValue code c).getD 0) 0

/-- A sign, and what follows it. -/
def takeSign : List α → Bool × List α
  | [] => (false, [])
  | c :: s => if code c = 45 then (true, s) else if code c = 43 then (false, s) else (false, c :: s)

/-- `0x` with a digit behind it. -/
def hexMark : List α → Bool
  | z :: x :: d :: _ => code z = 48 && (code x = 120 || code x = 88) && isDigitOf code 16 d
  | _ => false

/-- A number read from a text, and what follows it. -/
structure Scanned (α : Type) where
  negative : Bool
  value : Nat
  rest : List α

/-- The base of a number: 0 asks for that of its mark. -/
def baseOf (base : Nat) (s : List α) : Nat :=
  if base ≠ 0 then base
  else if hexMark code s then 16
  else if s.head?.any (code · = 48) then 8 else 10

theorem baseOf_of_ne {base : Nat} (h : base ≠ 0) (s : List α) : baseOf code base s = base :=
  if_pos h

/-- Digits, at least one. -/
def scanDigits (negative : Bool) (base : Nat) (s : List α) : Option (Scanned α) :=
  if s.takeWhile (isDigitOf code base) = [] then none
  else some ⟨negative, numeral code base (s.takeWhile (isDigitOf code base)),
    s.dropWhile (isDigitOf code base)⟩

def scanNumber (base : Nat) (s : List α) : Option (Scanned α) :=
  let signed := takeSign code (s.dropWhile (isBlank code))
  let b := baseOf code base signed.2
  scanDigits code signed.1 b
    (if b = 16 ∧ hexMark code signed.2 then signed.2.drop 2 else signed.2)

/-- `strtoul` for numbers below `word`: the number and what follows it, which is the whole text when
there is no number. -/
def strtoul (word base : Nat) (s : List α) : Nat × List α :=
  match scanNumber code base s with
  | none => (0, s)
  | some n =>
    (if word ≤ n.value then word - 1 else if n.negative then (word - n.value) % word else n.value,
      n.rest)

/-- `strtol` for numbers below `half` and from `-half` on. -/
def strtol (half base : Nat) (s : List α) : Int × List α :=
  match scanNumber code base s with
  | none => (0, s)
  | some n =>
    (if n.negative then -(min n.value half : Nat) else (min n.value (half - 1) : Nat), n.rest)

section Lemmas

variable {code}

theorem takeSign_length_le (s : List α) : (takeSign code s).2.length ≤ s.length := by
  cases s with
  | nil => exact Nat.le_refl 0
  | cons c s =>
    rw [takeSign]
    split
    · exact Nat.le_succ _
    · split
      · exact Nat.le_succ _
      · exact Nat.le_refl _

theorem scanDigits_rest_lt {negative : Bool} {base : Nat} {s : List α} {n : Scanned α}
    (h : scanDigits code negative base s = some n) : n.rest.length < s.length := by
  unfold scanDigits at h
  split at h
  · cases h
  · rename_i some
    obtain rfl := Option.some.inj h
    have split := congrArg List.length
      (List.takeWhile_append_dropWhile (p := isDigitOf code base) (l := s))
    have := List.length_pos_iff.mpr some
    rw [List.length_append] at split
    dsimp only
    omega

/-- A number that was found is not empty. -/
theorem scanNumber_rest_lt {base : Nat} {s : List α} {n : Scanned α}
    (h : scanNumber code base s = some n) : n.rest.length < s.length := by
  have less := scanDigits_rest_lt h
  have sign := @takeSign_length_le _ code (s.dropWhile (isBlank code))
  have blanks := (List.dropWhile_sublist (isBlank code) (l := s)).length_le
  have mark : ∀ t : List α,
      (if baseOf code base t = 16 ∧ hexMark code t then t.drop 2 else t).length ≤ t.length := by
    intro t
    split
    · rw [List.length_drop]
      exact Nat.sub_le _ _
    · exact Nat.le_refl _
  exact Nat.lt_of_lt_of_le less (Nat.le_trans (mark _) (Nat.le_trans sign blanks))

/-- `strtoul` returns the whole text if there is no number. -/
theorem strtoul_none_iff {word base : Nat} {s : List α} :
    (strtoul code word base s).2.length = s.length ↔ scanNumber code base s = none := by
  unfold strtoul
  cases h : scanNumber code base s with
  | none => simp
  | some n =>
    have := scanNumber_rest_lt h
    simp only [reduceCtorEq, iff_false]
    omega

/-- A decimal digit is neither a blank nor a sign. -/
theorem isDigitOf_ten {c : α} (h : isDigitOf code 10 c = true) : 48 ≤ code c ∧ code c ≤ 57 := by
  unfold isDigitOf digitValue at h
  by_cases decimal : 48 ≤ code c ∧ code c ≤ 57
  · exact decimal
  · rw [if_neg decimal] at h
    split at h
    · simp at h
      omega
    · split at h
      · simp at h
        omega
      · simp at h

/-- A text of digits is a number as a whole. -/
theorem scanNumber_digits {s : List α} (nonempty : s ≠ [])
    (digits : ∀ c ∈ s, isDigitOf code 10 c = true) :
    scanNumber code 10 s = some ⟨false, numeral code 10 s, []⟩ := by
  cases s with
  | nil => exact absurd rfl nonempty
  | cons c s =>
    have first := isDigitOf_ten (digits c List.mem_cons_self)
    have notBlank : ¬ isBlank code c = true := by
      simp only [isBlank, Bool.or_eq_true, decide_eq_true_eq, Bool.and_eq_true]
      omega
    have taken := List.takeWhile_eq_self_iff.mpr digits
    have dropped := List.dropWhile_eq_nil_iff.mpr digits
    rw [scanNumber, List.dropWhile_cons_of_neg notBlank, takeSign, if_neg (by omega),
      if_neg (by omega)]
    simp only [baseOf_of_ne code (by decide : 10 ≠ 0), (by decide : ¬ 10 = 16), false_and, if_false,
      scanDigits, taken, dropped, List.cons_ne_nil]

end Lemmas

end CoLinux.Lib
