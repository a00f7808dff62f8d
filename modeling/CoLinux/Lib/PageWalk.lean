import Mathlib.Logic.Basic

/-!
# Page tables and the walk of the processor

Memory is seen as page frames of entries. An entry that is present has its lowest bit set and
holds the number of the frame it refers to from bit 12 on; a walk looks up one index at each level.
-/

namespace CoLinux.Lib

/-- The entry at an index of a frame. -/
abbrev TableMem : Type := Nat → Nat → Nat

def TableMem.set (m : TableMem) (frame i entry : Nat) : TableMem :=
  fun g j => if g = frame ∧ j = i then entry else m g j

/-- The frame that a walk over the levels of `is` ends in. -/
def walk (m : TableMem) : Nat → List Nat → Option Nat
  | frame, [] => some frame
  | frame, i :: is => if m frame i % 2 = 0 then none else walk m (m frame i / 4096) is

/-- An entry that refers to a frame. -/
def tableEntry (flags frame : Nat) : Nat := flags ||| 4096 * frame

variable {m : TableMem} {frame g i j flags entry : Nat}

theorem TableMem.set_frame (h : g ≠ frame) : m.set frame i entry g j = m g j :=
  if_neg fun same => h same.1

theorem tableEntry_eq (hf : flags < 4096) : tableEntry flags frame = 4096 * frame + flags := by
  rw [tableEntry, Nat.or_comm]
  exact (Nat.two_pow_add_eq_or_of_lt (i := 12) hf frame).symm

theorem tableEntry_ne_zero (present : flags % 2 = 1) (hf : flags < 4096) :
    tableEntry flags frame ≠ 0 := by
  rw [tableEntry_eq hf]
  omega

/-- A walk goes on in the frame of an entry that is present. -/
theorem walk_entry {is : List Nat} (present : flags % 2 = 1) (hf : flags < 4096) {next : Nat}
    (h : m frame i = tableEntry flags next) : walk m frame (i :: is) = walk m next is := by
  have low : tableEntry flags next % 2 ≠ 0 := by
    rw [tableEntry_eq hf]
    omega
  have high : tableEntry flags next / 4096 = next := by
    rw [tableEntry_eq hf]
    omega
  rw [walk, h, if_neg low, high]

/-- A walk ends at an entry that is not present. -/
theorem walk_none {is : List Nat} (h : m frame i = 0) : walk m frame (i :: is) = none := by
  rw [walk, h]
  rfl

end CoLinux.Lib
