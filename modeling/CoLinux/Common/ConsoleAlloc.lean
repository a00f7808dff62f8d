import CoLinux.Common.ConsoleSafety
import CoLinux.Lib.Numeral

/-!
# The block of a console

`co_console_create` takes one block for the header and the cells, and relies on `config.c` for the
limits of the numbers it multiplies. That file bounds the rows from above, but not the columns.
-/

namespace CoLinux

open Lib

/-- `(char *)console->screen - (char *)console->buffer`, in pointer arithmetic. -/
def ConsoleConfig.screenBytes (g : ConsoleConfig) : Nat :=
  sizeofConsoleCell * g.screen % wordSize

/-- The block of a console is as large as its header and its cells, and the screen is what is left
of it behind the rows that have scrolled. -/
structure AllocationExact (g : ConsoleConfig) : Prop where
  size : g.structSize = sizeofCoConsole + sizeofConsoleCell * g.cells
  screenInside : sizeofCoConsole + g.screenBytes + sizeofConsoleCell * (g.x * g.y) ≤ g.structSize
  partition : g.screenBytes = sizeofConsoleCell * g.screen ∧
    sizeofCoConsole + sizeofConsoleCell * g.screen + sizeofConsoleCell * (g.x * g.y) = g.structSize

/-- The block of an accepted console is right if and only if its cells fit in the address
space. -/
theorem consoleAllocation_exact_iff {strtol : List Char → Int × List Char}
    {arg : Option (List Char)} {conf g : ConsoleConfig}
    (accepted : parseArgsConfigCocon strtol arg conf = some g) :
    AllocationExact g ↔ g.x * g.maxY < 2147483628 := by
  have rows := parseArgsConfigCocon_rows accepted
  have whole := ConsoleConfig.screen_add rows
  have shape : g.structSize = (sizeofConsoleCell * g.cells + sizeofCoConsole) % wordSize := by
    rw [ConsoleConfig.structSize, ConsoleConfig.cells, Nat.mul_assoc]
  have cells : g.cells = g.x * g.maxY := rfl
  rw [← cells]
  constructor
  · intro exact
    have size := exact.size
    have bound : g.structSize < wordSize := by
      rw [shape]
      exact Nat.mod_lt _ (by decide)
    simp only [sizeofConsoleCell, sizeofCoConsole, wordSize] at size bound
    omega
  · intro small
    have size : g.structSize = sizeofCoConsole + sizeofConsoleCell * g.cells := by
      rw [shape, Nat.add_comm]
      apply Nat.mod_eq_of_lt
      simp only [sizeofConsoleCell, sizeofCoConsole, wordSize]
      omega
    have screen : g.screenBytes = sizeofConsoleCell * g.screen := by
      apply Nat.mod_eq_of_lt
      simp only [sizeofConsoleCell, wordSize]
      omega
    have filled : sizeofCoConsole + sizeofConsoleCell * g.screen + sizeofConsoleCell * (g.x * g.y) =
        g.structSize := by
      rw [size, ← whole, Nat.mul_add, Nat.add_assoc]
    refine ⟨size, Nat.le_of_eq ?_, screen, filled⟩
    rw [screen, filled]

/-- `cocon=120x40`. -/
theorem consoleAllocation_exact_120x40 : AllocationExact ⟨120, 40, 500, 7⟩ :=
  (@consoleAllocation_exact_iff (strtol Char.toNat 2147483648 0) (some "120x40".toList)
    defaultConsole _ (by decide)).mpr (by decide)

/-- `cocon=4294968x25` is accepted, and the block for its 500 rows of 4294968 cells has 744
bytes. -/
theorem consoleAllocation_wraps :
    parseArgsConfigCocon (strtol Char.toNat 2147483648 0) (some "4294968x25".toList)
        defaultConsole = some ⟨4294968, 25, 500, 7⟩ ∧
      (coConsoleCreate ⟨4294968, 25, 500, 7⟩).size = 744 ∧
      ¬ AllocationExact ⟨4294968, 25, 500, 7⟩ := by
  refine ⟨by decide, by decide, fun exact => ?_⟩
  exact absurd exact.size (by decide)

end CoLinux
