import Mathlib.Data.List.Basic

/-!
# Computations that record their reads

A result together with what was read for it, in order. `All P` says that every read of a computation
satisfies `P`; the lemmas take it apart along `bind`, and along a search that tries one number after
the other and stops at the first with a result.
-/

namespace CoLinux.Lib

/-- A result with the reads that were made for it. -/
structure Traced (ρ α : Type) where
  log : List ρ
  value : α

namespace Traced

variable {ρ α β : Type}

instance : Monad (Traced ρ) where
  pure a := ⟨[], a⟩
  bind t f := ⟨t.log ++ (f t.value).log, (f t.value).value⟩

/-- One read. -/
def read (r : ρ) (a : α) : Traced ρ α := ⟨[r], a⟩

@[simp] theorem value_pure (a : α) : (pure a : Traced ρ α).value = a := rfl

@[simp] theorem value_bind (t : Traced ρ α) (f : α → Traced ρ β) :
    (t >>= f).value = (f t.value).value := rfl

@[simp] theorem value_read (r : ρ) (a : α) : (read r a).value = a := rfl

variable {P : ρ → Prop}

/-- Every read satisfies `P`. -/
def All (P : ρ → Prop) (t : Traced ρ α) : Prop := ∀ r ∈ t.log, P r

@[simp] theorem all_pure (a : α) : (pure a : Traced ρ α).All P :=
  fun _ mem => absurd mem List.not_mem_nil

@[simp] theorem all_bind (t : Traced ρ α) (f : α → Traced ρ β) :
    (t >>= f).All P ↔ t.All P ∧ (f t.value).All P :=
  List.forall_mem_append

@[simp] theorem all_read (r : ρ) (a : α) : (read r a).All P ↔ P r :=
  List.forall_mem_singleton

/-- The first result among `n` numbers from `start` on. -/
def firstSome (test : Nat → Traced ρ (Option β)) (start : Nat) : Nat → Traced ρ (Option β)
  | 0 => pure none
  | n + 1 => do
    match ← test start with
    | some b => pure (some b)
    | none => firstSome test (start + 1) n

variable {test : Nat → Traced ρ (Option β)} {start n : Nat}

/-- A number is tried if there is no result before it. -/
def Tried (test : Nat → Traced ρ (Option β)) (start i : Nat) : Prop :=
  ∀ j, start ≤ j → j < i → (test j).value = none

theorem Tried.step {i : Nat} (first : (test start).value = none) :
    Tried test start i ↔ Tried test (start + 1) i := by
  constructor
  · intro tried j from' below
    exact tried j (by omega) below
  · intro tried j from' below
    by_cases same : j = start
    · rw [same, first]
    · exact tried j (by omega) below

theorem all_firstSome :
    (firstSome test start n).All P ↔
      ∀ i, start ≤ i → i < start + n → Tried test start i → (test i).All P := by
  induction n generalizing start with
  | zero => exact iff_of_true (all_pure none) fun i low high => absurd high (by omega)
  | succ n ih =>
    rw [firstSome, all_bind]
    constructor
    · rintro ⟨first, others⟩ i low high tried
      by_cases same : i = start
      · rw [same]
        exact first
      · have later : start < i := by omega
        have passed := tried start (Nat.le_refl start) later
        rw [passed] at others
        exact ih.mp others i later (by omega) ((Tried.step passed).mp tried)
    · intro all
      refine ⟨all start (Nat.le_refl start) (by omega) fun j low below => by omega, ?_⟩
      cases result : (test start).value with
      | some b => exact all_pure _
      | none =>
        refine ih.mpr fun i low high tried => ?_
        exact all i (by omega) (by omega) ((Tried.step result).mpr tried)

theorem value_firstSome (b : β) :
    (firstSome test start n).value = some b ↔
      ∃ i, start ≤ i ∧ i < start + n ∧ Tried test start i ∧ (test i).value = some b := by
  induction n generalizing start with
  | zero => exact iff_of_false (fun none => nomatch none) fun ⟨i, low, high, _⟩ => by omega
  | succ n ih =>
    rw [firstSome, value_bind]
    cases result : (test start).value with
    | some c =>
      constructor
      · intro same
        refine ⟨start, Nat.le_refl start, by omega, fun j low below => by omega, ?_⟩
        rw [result]
        exact same
      · rintro ⟨i, low, high, tried, found⟩
        by_cases same : i = start
        · rw [same, result] at found
          exact found
        · rw [tried start (Nat.le_refl start) (by omega)] at result
          cases result
    | none =>
      constructor
      · intro found
        obtain ⟨i, low, high, tried, found⟩ := ih.mp found
        exact ⟨i, by omega, by omega, (Tried.step result).mpr tried, found⟩
      · rintro ⟨i, low, high, tried, found⟩
        have later : start < i := by
          rcases Nat.lt_or_eq_of_le low with later | same
          · exact later
          · rw [← same, result] at found
            cases found
        exact ih.mpr ⟨i, later, by omega, (Tried.step result).mp tried, found⟩

end Traced

end CoLinux.Lib
