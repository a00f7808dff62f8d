import Mathlib.Data.List.Basic

/-!
# Length-prefixed records

A stream of records, each a header of fixed length that says how long the body after it is.
`split` takes the maximal prefix of complete records off a stream. The results say that it
inverts concatenation (`split_flatten_append`), that it is the only decomposition into complete
records and an incomplete tail (`split_unique`), and that a stream may be split in two
sittings (`split_append`), which is what a reader with a reassembly buffer does.
-/

namespace CoLinux.Lib

/-- A record format over streams of `α`. -/
structure Framing (α : Type) where
  /-- The length of a header. -/
  header : Nat
  /-- The length of the body, read off the header. -/
  body : List α → Nat
  header_pos : 0 < header
  /-- Only the header decides the length of the body. -/
  body_append : ∀ xs ys, header ≤ xs.length → body (xs ++ ys) = body xs

namespace Framing

variable {α : Type} (F : Framing α)

/-- The length of the record at the start of `xs`. -/
def recordLength (xs : List α) : Nat := F.header + F.body xs

/-- `xs` starts with a complete record. -/
def Starts (xs : List α) : Prop := F.header ≤ xs.length ∧ F.recordLength xs ≤ xs.length

/-- `r` is one complete record and nothing else. -/
def Record (r : List α) : Prop := F.header ≤ r.length ∧ r.length = F.recordLength r

instance (xs : List α) : Decidable (F.Starts xs) := instDecidableAnd

/-- `split` with a bound on the number of records. -/
def splitFuel : Nat → List α → List (List α) × List α
  | 0, xs => ([], xs)
  | fuel + 1, xs =>
    if F.Starts xs then
      let rest := splitFuel fuel (xs.drop (F.recordLength xs))
      (xs.take (F.recordLength xs) :: rest.1, rest.2)
    else ([], xs)

/-- The complete records at the start of `xs`, and what is left. -/
def split (xs : List α) : List (List α) × List α := F.splitFuel xs.length xs

theorem recordLength_pos (xs : List α) : 0 < F.recordLength xs :=
  Nat.lt_of_lt_of_le F.header_pos (Nat.le_add_right _ _)

theorem not_starts_nil : ¬F.Starts ([] : List α) := by
  rintro ⟨h, -⟩
  have := F.header_pos
  simp only [List.length_nil] at h
  omega

theorem recordLength_append {xs : List α} (ys : List α) (h : F.header ≤ xs.length) :
    F.recordLength (xs ++ ys) = F.recordLength xs := by
  unfold recordLength
  rw [F.body_append xs ys h]

theorem Starts.append {xs : List α} (h : F.Starts xs) (ys : List α) : F.Starts (xs ++ ys) := by
  constructor
  · have := h.1
    simp only [List.length_append]
    omega
  · rw [F.recordLength_append ys h.1]
    have := h.2
    simp only [List.length_append]
    omega

theorem Record.starts {r : List α} (h : F.Record r) : F.Starts r := ⟨h.1, Nat.le_of_eq h.2.symm⟩

/-- The front of a stream that starts with a record is one. -/
theorem Starts.record_take {xs : List α} (h : F.Starts xs) :
    F.Record (xs.take (F.recordLength xs)) := by
  have long : F.header ≤ (xs.take (F.recordLength xs)).length := by
    have := h.1
    simp only [List.length_take, recordLength]
    omega
  refine ⟨long, ?_⟩
  have same := F.recordLength_append (xs.drop (F.recordLength xs)) long
  rw [List.take_append_drop] at same
  rw [← same, List.length_take]
  exact Nat.min_eq_left h.2

/-- More fuel than elements changes nothing. -/
theorem splitFuel_eq {fuel : Nat} {xs : List α} (h : xs.length ≤ fuel) :
    F.splitFuel fuel xs = F.split xs := by
  suffices ∀ fuel fuel' (xs : List α), xs.length ≤ fuel → xs.length ≤ fuel' →
      F.splitFuel fuel xs = F.splitFuel fuel' xs from this _ _ _ h (Nat.le_refl _)
  intro fuel
  induction fuel with
  | zero =>
    intro fuel' xs h _
    have empty : xs = [] := List.length_eq_zero_iff.mp (by omega)
    subst empty
    cases fuel' with
    | zero => rfl
    | succ => exact (if_neg F.not_starts_nil).symm
  | succ fuel ih =>
    intro fuel' xs h h'
    cases fuel' with
    | zero =>
      have empty : xs = [] := List.length_eq_zero_iff.mp (by omega)
      subst empty
      exact if_neg F.not_starts_nil
    | succ fuel' =>
      have shorter := F.recordLength_pos xs
      simp only [splitFuel]
      rw [ih fuel' (xs.drop (F.recordLength xs)) (by simp only [List.length_drop]; omega)
        (by simp only [List.length_drop]; omega)]

theorem split_of_not_starts {xs : List α} (h : ¬F.Starts xs) : F.split xs = ([], xs) := by
  unfold split
  cases xs.length with
  | zero => rfl
  | succ => exact if_neg h

theorem split_of_starts {xs : List α} (h : F.Starts xs) :
    F.split xs = (xs.take (F.recordLength xs) :: (F.split (xs.drop (F.recordLength xs))).1,
      (F.split (xs.drop (F.recordLength xs))).2) := by
  have shorter := F.recordLength_pos xs
  have := h.2
  rw [← F.splitFuel_eq (Nat.le_succ xs.length)]
  simp only [splitFuel, if_pos h]
  rw [F.splitFuel_eq (by simp only [List.length_drop]; omega)]

@[simp] theorem split_nil : F.split ([] : List α) = ([], []) :=
  F.split_of_not_starts F.not_starts_nil

/-- A record in front is split off whole. -/
theorem split_record_append {r : List α} (h : F.Record r) (xs : List α) :
    F.split (r ++ xs) = (r :: (F.split xs).1, (F.split xs).2) := by
  have same : F.recordLength (r ++ xs) = r.length := by
    rw [F.recordLength_append xs h.1, ← h.2]
  rw [F.split_of_starts (h.starts.append F xs), same, List.take_left, List.drop_left]

/-- Splitting inverts concatenation. -/
theorem split_flatten_append {rs : List (List α)} (h : ∀ r ∈ rs, F.Record r) (xs : List α) :
    F.split (rs.flatten ++ xs) = (rs ++ (F.split xs).1, (F.split xs).2) := by
  induction rs with
  | nil => rfl
  | cons r rs ih =>
    rw [List.flatten_cons, List.append_assoc, F.split_record_append (h r List.mem_cons_self),
      ih fun r' hr' => h r' (List.mem_cons_of_mem _ hr')]
    rfl

/-- The one decomposition into complete records and a tail that does not start with one. -/
theorem split_unique {rs : List (List α)} {tail : List α} (h : ∀ r ∈ rs, F.Record r)
    (htail : ¬F.Starts tail) : F.split (rs.flatten ++ tail) = (rs, tail) := by
  rw [F.split_flatten_append h, F.split_of_not_starts htail, List.append_nil]

/-- What `split` returns is such a decomposition. -/
theorem split_spec (xs : List α) :
    (∀ r ∈ (F.split xs).1, F.Record r) ∧ (F.split xs).1.flatten ++ (F.split xs).2 = xs ∧
      ¬F.Starts (F.split xs).2 := by
  induction hn : xs.length using Nat.strongRecOn generalizing xs with
  | ind n ih =>
    by_cases h : F.Starts xs
    · have shorter := F.recordLength_pos xs
      have := h.2
      obtain ⟨records, whole, rest⟩ := ih (xs.drop (F.recordLength xs)).length
        (by simp only [List.length_drop]; omega) _ rfl
      rw [F.split_of_starts h]
      refine ⟨?_, ?_, rest⟩
      · intro r hr
        rcases List.mem_cons.mp hr with rfl | hr
        · exact h.record_take
        · exact records r hr
      · rw [List.flatten_cons, List.append_assoc, whole, List.take_append_drop]
    · rw [F.split_of_not_starts h]
      exact ⟨by simp, rfl, h⟩

/-- A stream that arrives in two parts: keep the incomplete tail of the first and go on. -/
theorem split_append (xs ys : List α) :
    F.split (xs ++ ys) = ((F.split xs).1 ++ (F.split ((F.split xs).2 ++ ys)).1,
      (F.split ((F.split xs).2 ++ ys)).2) := by
  obtain ⟨records, whole, -⟩ := F.split_spec xs
  conv_lhs => rw [← whole, List.append_assoc]
  exact F.split_flatten_append records _

end Framing

end CoLinux.Lib
