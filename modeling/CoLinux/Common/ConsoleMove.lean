import CoLinux.Common.ConsoleScroll
import CoLinux.Lib.BlockCopy

/-!
# Moving a rectangle of the console

`BMOVE` copies one row after the other inside the screen, top down when the rectangle moves up
and bottom up otherwise. No row is written before it is read, so the rectangle moves as a whole.
-/

namespace CoLinux

open Lib

/-- The cell in a row and a column of the viewable screen. -/
def ConsoleConfig.screenCell (g : ConsoleConfig) (row column : Nat) : Nat :=
  g.screen + g.x * row + column

/-- The copy of the cells of row `source` from column `left` on to row `target`. -/
def ConsoleConfig.rowCopy (g : ConsoleConfig) (column left target source : Nat) : BlockCopy :=
  ⟨g.screenCell target column, g.screenCell source left⟩

section Turns

variable {c : Console} {g : ConsoleConfig}

theorem ConsoleConfig.screenCell_add (row column i : Nat) :
    g.screenCell row column + i = g.screenCell row (column + i) :=
  Nat.add_assoc _ _ _

theorem ConsoleConfig.screenCell_cast (row column : Nat) :
    (g.screen + g.x * (row : Int) + column : Int) = (g.screenCell row column : Nat) := by
  simp only [ConsoleConfig.screenCell]
  push_cast
  rfl

theorem ConsoleConfig.screenCell_inj {row row' column column' : Nat} (inRow : column < g.x)
    (inRow' : column' < g.x) (same : g.screenCell row column = g.screenCell row' column') :
    row = row' ∧ column = column' := by
  have cell : g.x * row + column = g.x * row' + column' := by
    simp only [ConsoleConfig.screenCell] at same
    omega
  have rows : row = row' := by
    apply Nat.le_antisymm
    · exact (mul_row_le inRow').mp (cell ▸ Nat.le_add_right _ _)
    · exact (mul_row_le inRow).mp (cell ▸ Nat.le_add_right _ _)
  subst rows
  exact ⟨rfl, Nat.add_left_cancel cell⟩

theorem ConsoleConfig.Fits.rowEnd_lt (fits : g.Fits) (rows : g.y ≤ g.maxY) {row column count : Nat}
    (onScreen : row < g.y) (inRow : column + count ≤ g.x) :
    g.screenCell row column + count < cellSpace := by
  have last := g.screen_add rows
  have below : g.x * row + g.x ≤ g.x * g.y := by
    rw [← Nat.mul_succ]
    exact Nat.mul_le_mul_left g.x onScreen
  refine Nat.lt_of_le_of_lt ?_ fits.cells_lt
  simp only [ConsoleConfig.screenCell]
  omega

/-- The copies of different rows, each later one from a row that is not written before it. -/
theorem ConsoleConfig.rowCopy_clear {column left target source target' source' count : Nat}
    (inRow : column + count ≤ g.x) (inRow' : left + count ≤ g.x)
    (unread : target ≠ source') (unwritten : target ≠ target') :
    (g.rowCopy column left target source).Clear count (g.rowCopy column left target' source') := by
  intro i hi j hj
  simp only [ConsoleConfig.rowCopy, ConsoleConfig.screenCell_add]
  constructor
  · intro same
    exact unread (g.screenCell_inj (by omega) (by omega) same).1
  · intro same
    exact unwritten (g.screenCell_inj (by omega) (by omega) same).1

@[simp] theorem Console.moveRows_config (column left right : Nat) (next : Int) (n : Nat)
    (y t : Int) : (c.moveRows column left right next n y t).config = c.config := by
  induction n generalizing c y t with
  | zero => rfl
  | succ n ih => exact ih ..

/-- The copies of `n` turns, turn `i` from row `source i` to row `target i`. -/
def ConsoleConfig.turnCopies (g : ConsoleConfig) (column left n : Nat) (target source : Nat → Nat) :
    List BlockCopy :=
  (List.range n).map fun i => g.rowCopy column left (target i) (source i)

theorem ConsoleConfig.turnCopies_succ (column left n : Nat) (target source : Nat → Nat) :
    g.turnCopies column left (n + 1) target source =
      g.rowCopy column left (target 0) (source 0) ::
        g.turnCopies column left n (fun i => target (i + 1)) fun i => source (i + 1) := by
  unfold ConsoleConfig.turnCopies
  rw [List.range_succ_eq_map, List.map_cons, List.map_map]
  rfl

theorem ConsoleConfig.mem_turnCopies {column left n : Nat} {target source : Nat → Nat}
    {b : BlockCopy} : b ∈ g.turnCopies column left n target source ↔
      ∃ i < n, g.rowCopy column left (target i) (source i) = b := by
  simp only [ConsoleConfig.turnCopies, List.mem_map, List.mem_range]

theorem ConsoleConfig.turnCopies_clear {column left count n : Nat} {target source : Nat → Nat}
    (inRow : column + count ≤ g.x) (inRow' : left + count ≤ g.x)
    (apart : ∀ i j, i < j → j < n → target i ≠ source j ∧ target i ≠ target j) :
    (g.turnCopies column left n target source).Pairwise (BlockCopy.Clear count) := by
  refine List.pairwise_map.mpr (List.Pairwise.imp_of_mem ?_ List.pairwise_lt_range)
  intro i j _ hj less
  obtain ⟨unread, unwritten⟩ := apart i j less (List.mem_range.mp hj)
  exact g.rowCopy_clear inRow inRow' unread unwritten

/-- A turn of the loops of `BMOVE` copies one row. -/
theorem Console.moveTurn_cells (fits : c.config.Fits) (rows : c.config.y ≤ c.config.maxY)
    {column left right target source : Nat} (ordered : left ≤ right)
    (inRow : column + (right - left + 1) ≤ c.config.x) (inRow' : right < c.config.x)
    (onScreen : target < c.config.y) (onScreen' : source < c.config.y)
    {m : Nat → ConsoleCell} (shown : ∀ a < cellSpace, c.cells a = m a) {a : Nat}
    (inside : a < cellSpace) :
    (c.memmove (c.config.screen + c.config.x * (target : Int) + column)
        (c.config.screen + c.config.x * (source : Int) + left) (right - left + 1)).cells a =
      copyBlock (right - left + 1) (c.config.rowCopy column left target source) m a := by
  have count : (right - left + 1 : Int) = (right - left + 1 : Nat) := by omega
  have room := fits.rowEnd_lt rows onScreen inRow
  have room' := fits.rowEnd_lt rows onScreen' (show left + (right - left + 1) ≤ _ by omega)
  rw [count, ConsoleConfig.screenCell_cast, ConsoleConfig.screenCell_cast,
    Console.memmove_cells room room' inside]
  simp only [copyBlock, ConsoleConfig.rowCopy]
  by_cases here : c.config.screenCell target column ≤ a ∧
      a < c.config.screenCell target column + (right - left + 1)
  · rw [if_pos here]
    exact (shown _ (by omega)).trans (if_pos here).symm
  · rw [if_neg here]
    exact (shown a inside).trans (if_neg here).symm

/-- The turns of a loop of `BMOVE` copy their rows in order. -/
theorem Console.moveRows_cells (fits : g.Fits) (rows : g.y ≤ g.maxY) (config : c.config = g)
    {column left right n : Nat} {next y t : Int} {target source : Nat → Nat}
    (ordered : left ≤ right) (inRow : column + (right - left + 1) ≤ g.x) (inRow' : right < g.x)
    (targets : ∀ i < n, (target i : Int) = y + next * i ∧ target i < g.y)
    (sources : ∀ i < n, (source i : Int) = t + next * i ∧ source i < g.y)
    {m : Nat → ConsoleCell} (shown : ∀ a < cellSpace, c.cells a = m a) {a : Nat}
    (inside : a < cellSpace) :
    (c.moveRows column left right next n y t).cells a =
      copyBlocks (right - left + 1) (g.turnCopies column left n target source) m a := by
  induction n generalizing c y t target source m with
  | zero => exact shown a inside
  | succ n ih =>
    subst config
    obtain ⟨atTarget, onScreen⟩ := targets 0 (Nat.zero_lt_succ n)
    obtain ⟨atSource, onScreen'⟩ := sources 0 (Nat.zero_lt_succ n)
    have targetRow : y = target 0 := by simpa using atTarget.symm
    have sourceRow : t = source 0 := by simpa using atSource.symm
    have shift : ∀ (p : Int) (i : Nat), p + next * (i + 1 : Nat) = p + next + next * i := by
      intro p i
      rw [Int.natCast_add, Int.mul_add, Int.natCast_one, Int.mul_one]
      omega
    rw [ConsoleConfig.turnCopies_succ]
    unfold Console.moveRows copyBlocks
    refine ih (c := c.memmove _ _ _) rfl ?_ ?_ ?_
    · intro i hi
      obtain ⟨row, below⟩ := targets (i + 1) (Nat.succ_lt_succ hi)
      exact ⟨row.trans (shift y i), below⟩
    · intro i hi
      obtain ⟨row, below⟩ := sources (i + 1) (Nat.succ_lt_succ hi)
      exact ⟨row.trans (shift t i), below⟩
    · intro a inside
      rw [targetRow, sourceRow]
      exact Console.moveTurn_cells fits rows ordered inRow inRow' onScreen onScreen' shown inside

end Turns

section Moves

variable {c : Console}

/-- A move of a rectangle: what the source held is in the target, and the rest is as before. -/
structure Console.Moved (c : Console) (row column top left bottom right : Nat) (op : ConsoleOp) :
    Prop where
  rc : op.rc = .ok
  config : op.console.config = c.config
  target : ∀ i ≤ bottom - top, ∀ j ≤ right - left,
    op.console.cells (c.config.screenCell (row + i) (column + j)) =
      c.cells (c.config.screenCell (top + i) (left + j))
  rest : ∀ a < c.config.cells,
    (∀ i ≤ bottom - top, ∀ j ≤ right - left, a ≠ c.config.screenCell (row + i) (column + j)) →
      op.console.cells a = c.cells a

/-- Turns that go through all rows of the rectangle, each row read before it is written, move the
rectangle. Row `i` of it is copied in turn `turn i`. -/
theorem Console.moved_of_turns (target source turn : Nat → Nat)
    {row column top left bottom right : Nat} (fits : c.config.Fits)
    (rows : c.config.y ≤ c.config.maxY) (ordered : left ≤ right)
    (onScreen : row + (bottom - top) < c.config.y)
    (inRow : column + (right - left) < c.config.x) (inRow' : right < c.config.x)
    (apart : ∀ i j, i < j → j < bottom + 1 - top → target i ≠ source j ∧ target i ≠ target j)
    (onto : ∀ i ≤ bottom - top, turn i < bottom + 1 - top ∧
      target (turn i) = row + i ∧ source (turn i) = top + i)
    (within : ∀ i < bottom + 1 - top, ∃ k ≤ bottom - top, target i = row + k) {r : Console}
    (config : r.config = c.config)
    (result : ∀ a < cellSpace, r.cells a = copyBlocks (right - left + 1)
      (c.config.turnCopies column left (bottom + 1 - top) target source) c.cells a)
    (message : ConsoleMessage) :
    c.Moved row column top left bottom right ⟨.ok, r, message⟩ := by
  have clear := @ConsoleConfig.turnCopies_clear c.config column left (right - left + 1) _ target
    source (by omega) (by omega) apart
  have last := c.config.screen_add rows
  refine ⟨rfl, config, ?_, ?_⟩
  · intro i hi j hj
    obtain ⟨turnBelow, atTarget, atSource⟩ := onto i hi
    have mem : c.config.rowCopy column left (row + i) (top + i) ∈
        c.config.turnCopies column left (bottom + 1 - top) target source :=
      ConsoleConfig.mem_turnCopies.mpr ⟨turn i, turnBelow, by rw [atTarget, atSource]⟩
    have room := fits.rowEnd_lt rows (show row + i < c.config.y by omega)
      (show column + j + 1 ≤ c.config.x by omega)
    have copied := copyBlocks_inside clear mem (show j < right - left + 1 by omega) c.cells
    simp only [ConsoleConfig.rowCopy, ConsoleConfig.screenCell_add] at copied
    exact (result _ (by omega)).trans copied
  · intro a inside outside
    have small : a < cellSpace := Nat.lt_trans inside fits.cells_lt
    refine (result a small).trans (copyBlocks_outside ?_ c.cells)
    intro b mem j hj
    obtain ⟨i, hi, rfl⟩ := ConsoleConfig.mem_turnCopies.mp mem
    obtain ⟨k, hk, atTarget⟩ := within i hi
    simp only [ConsoleConfig.rowCopy, ConsoleConfig.screenCell_add, atTarget]
    exact outside k hk j (by omega)

/-- `BMOVE` inside the screen is a simultaneous copy. -/
theorem bmove_moved (fits : c.config.Fits) (rows : c.config.y ≤ c.config.maxY)
    {row column top left bottom right : Nat} (upward : top ≤ bottom) (ordered : left ≤ right)
    (source : bottom < c.config.y ∧ right < c.config.x)
    (target : row + (bottom - top) < c.config.y ∧ column + (right - left) < c.config.x) :
    c.Moved row column top left bottom right
      (coConsoleOp (.bmove row column top left bottom right) c) := by
  obtain ⟨onScreen, inRow'⟩ := source
  obtain ⟨onScreen', inRow⟩ := target
  simp only [coConsoleOp, Console.bmove]
  by_cases above : row < top
  · -- top down: the rows that are written lie above those still to be read
    rw [if_pos above]
    refine Console.moved_of_turns (fun i => row + i) (fun i => top + i) (fun i => i)
      fits rows ordered onScreen' inRow inRow' ?_ ?_ ?_ (Console.moveRows_config ..) ?_ _
    · intro i j less below
      omega
    · intro i hi
      exact ⟨by omega, rfl, rfl⟩
    · intro i hi
      exact ⟨i, by omega, rfl⟩
    · intro a inside
      refine Console.moveRows_cells fits rows rfl ordered inRow inRow' ?_ ?_ (fun _ _ => rfl) inside
      · intro i hi
        omega
      · intro i hi
        omega
  · -- bottom up, also when the rows stay the same and each is a copy of its own
    rw [if_neg above]
    refine Console.moved_of_turns (fun i => row + (bottom - top) - i) (fun i => bottom - i)
      (fun i => bottom - top - i)
      fits rows ordered onScreen' inRow inRow' ?_ ?_ ?_ (Console.moveRows_config ..) ?_ _
    · intro i j less below
      omega
    · intro i hi
      omega
    · intro i hi
      exact ⟨bottom - top - i, by omega, by omega⟩
    · intro a inside
      refine Console.moveRows_cells fits rows rfl ordered inRow inRow' ?_ ?_ (fun _ _ => rfl) inside
      · intro i hi
        omega
      · intro i hi
        omega

/-- Three rows of 15 cells move one row down and one column to the right, over themselves. -/
theorem bmove_moved_numberedConsole :
    numberedConsole.Moved 1 1 0 0 2 14 (coConsoleOp (.bmove 1 1 0 0 2 14) numberedConsole) :=
  bmove_moved (by decide) (by decide) (by decide) (by decide) (by decide) (by decide)

end Moves

end CoLinux
