import Mathlib.Data.List.Basic

/-!
# Copying blocks one after the other

A memory is a function from addresses. Copies of equally long blocks in sequence are one
simultaneous copy when no block is written that a later copy still reads or writes.
-/

namespace CoLinux.Lib

variable {α : Type}

/-- A copy of a block from address `src` to address `dest`. -/
structure BlockCopy where
  dest : Nat
  src : Nat

/-- The memory after one copy of `count` cells. -/
def copyBlock (count : Nat) (b : BlockCopy) (m : Nat → α) : Nat → α := fun a =>
  if b.dest ≤ a ∧ a < b.dest + count then m (b.src + (a - b.dest)) else m a

/-- The memory after the copies, first to last. -/
def copyBlocks (count : Nat) : List BlockCopy → (Nat → α) → Nat → α
  | [], m => m
  | b :: blocks, m => copyBlocks count blocks (copyBlock count b m)

/-- What `b` writes is neither read nor written by `later`. -/
def BlockCopy.Clear (count : Nat) (b later : BlockCopy) : Prop :=
  ∀ i < count, ∀ j < count, b.dest + i ≠ later.src + j ∧ b.dest + i ≠ later.dest + j

theorem copyBlock_inside {count i : Nat} (b : BlockCopy) (below : i < count) (m : Nat → α) :
    copyBlock count b m (b.dest + i) = m (b.src + i) := by
  unfold copyBlock
  rw [if_pos ⟨Nat.le_add_right _ _, Nat.add_lt_add_left below _⟩, Nat.add_sub_cancel_left]

theorem copyBlock_outside {count a : Nat} {b : BlockCopy} (outside : ∀ i < count, a ≠ b.dest + i)
    (m : Nat → α) : copyBlock count b m a = m a := by
  unfold copyBlock
  apply if_neg
  rintro ⟨low, high⟩
  exact outside (a - b.dest) (by omega) (by omega)

/-- The copies leave every address alone that is in no target. -/
theorem copyBlocks_outside {count a : Nat} {blocks : List BlockCopy}
    (outside : ∀ b ∈ blocks, ∀ i < count, a ≠ b.dest + i) (m : Nat → α) :
    copyBlocks count blocks m a = m a := by
  induction blocks generalizing m with
  | nil => rfl
  | cons b blocks ih =>
    have rest : ∀ b ∈ blocks, ∀ i < count, a ≠ b.dest + i := fun b hb =>
      outside b (List.mem_cons_of_mem _ hb)
    have first : ∀ i < count, a ≠ b.dest + i := outside b List.mem_cons_self
    calc copyBlocks count blocks (copyBlock count b m) a
        = copyBlock count b m a := ih rest _
      _ = m a := copyBlock_outside first m

/-- Every target has what its source held before the first copy. -/
theorem copyBlocks_inside {count : Nat} {blocks : List BlockCopy}
    (clear : blocks.Pairwise (BlockCopy.Clear count)) {b : BlockCopy} (mem : b ∈ blocks) {i : Nat}
    (below : i < count) (m : Nat → α) :
    copyBlocks count blocks m (b.dest + i) = m (b.src + i) := by
  induction blocks generalizing m with
  | nil => cases mem
  | cons first blocks ih =>
    obtain ⟨clearFirst, clearRest⟩ := List.pairwise_cons.mp clear
    rcases List.mem_cons.mp mem with rfl | later
    · -- no later copy writes what the first one has written
      have kept := copyBlocks_outside
        (fun later hlater j hj => (clearFirst later hlater i below j hj).2) (copyBlock count b m)
      exact kept.trans (copyBlock_inside b below m)
    · -- the first copy has not written what this one reads
      have read := ih clearRest later (copyBlock count first m)
      refine read.trans (copyBlock_outside ?_ m)
      intro j hj same
      exact (clearFirst b later j hj i below).1 same.symm

end CoLinux.Lib
