import CoLinux.Common.ConsoleSafety
import Mathlib.Data.List.Basic

/-!
# Scrolling the console

What `SCROLL_UP` and `SCROLL_DOWN` make of the rows of the screen and of the scrollback, against
what a scroll is for. A region of the screen is refused when it reaches row `max_y` and all of
its rows leave it.
-/

namespace CoLinux

/-- A row of the buffer. -/
def Console.bufferRow (c : Console) (row : Nat) : List ConsoleCell :=
  (List.range c.config.x).map fun i => c.cells (c.config.x * row + i)

/-- The rows of the viewable screen. -/
def Console.screenRows (c : Console) : List (List ConsoleCell) :=
  (List.range c.config.y).map fun row => c.bufferRow (c.config.maxY - c.config.y + row)

/-- The rows that have left the screen, the oldest first. -/
def Console.scrollbackRows (c : Console) : List (List ConsoleCell) :=
  (List.range (c.config.maxY - c.config.y)).map c.bufferRow

section Reference

variable {α : Type}

/-- The rows from `t` up to `b` move up by `n`. -/
def rowsUp (t b n : Nat) (blank : α) (rows : List α) : List α :=
  rows.take t ++ (rows.take b).drop (t + n) ++ List.replicate n blank ++ rows.drop b

/-- The rows from `t` up to `b` move down by `n`. -/
def rowsDown (t b n : Nat) (blank : α) (rows : List α) : List α :=
  rows.take t ++ List.replicate n blank ++ (rows.take (b - n)).drop t ++ rows.drop b

theorem rowsUp_range {t b n m : Nat} {blank : α} {f f' : Nat → α} (area : t + n ≤ b)
    (inside : b ≤ m)
    (h : ∀ r < m, f' r =
      if b - n ≤ r ∧ r < b then blank else if t ≤ r ∧ r < b - n then f (r + n) else f r) :
    (List.range m).map f' = rowsUp t b n blank ((List.range m).map f) := by
  apply List.ext_getElem
  · simp [rowsUp]
    omega
  intro r h1 h2
  have below : r < m := by simpa using h1
  simp only [rowsUp, List.getElem_append, List.getElem_map, List.getElem_range,
    List.getElem_take, List.getElem_drop, List.getElem_replicate, List.length_append,
    List.length_take, List.length_drop, List.length_map, List.length_range,
    List.length_replicate, h r below]
  split_ifs <;> first | rfl | omega | (apply congrArg f; omega)

theorem rowsDown_range {t b n m : Nat} {blank : α} {f f' : Nat → α} (area : t + n ≤ b)
    (inside : b ≤ m)
    (h : ∀ r < m, f' r =
      if t ≤ r ∧ r < t + n then blank else if t + n ≤ r ∧ r < b then f (r - n) else f r) :
    (List.range m).map f' = rowsDown t b n blank ((List.range m).map f) := by
  apply List.ext_getElem
  · simp [rowsDown]
    omega
  intro r h1 h2
  have below : r < m := by simpa using h1
  simp only [rowsDown, List.getElem_append, List.getElem_map, List.getElem_range,
    List.getElem_take, List.getElem_drop, List.getElem_replicate, List.length_append,
    List.length_take, List.length_drop, List.length_map, List.length_range,
    List.length_replicate, h r below]
  split_ifs <;> first | rfl | omega | (apply congrArg f; omega)

end Reference

section Cells

variable {c : Console}

theorem cellDistance_lt_iff {start count j : Nat} (room : start + count ≤ cellSpace)
    (inside : j < cellSpace) : cellDistance start j < count ↔ start ≤ j ∧ j < start + count := by
  by_cases h : start ≤ j
  · rw [cellDistance_of_le h inside]
    omega
  · have far := le_cellDistance (Nat.lt_of_not_le h) room
    omega

theorem cellAt_ofNat {p : Nat} (small : p < cellSpace) : cellAt p = p :=
  Int.ofNat_inj.mp (cellAt_of_lt (Int.natCast_nonneg p) (Int.ofNat_lt.mpr small))

theorem Console.store_cells {start count j : Nat} (room : start + count < cellSpace)
    (inside : j < cellSpace) (data : Nat → ConsoleCell) :
    (c.store start count data).cells j =
      if start ≤ j ∧ j < start + count then data (j - start) else c.cells j := by
  simp only [Console.store, cellAt_ofNat (Nat.lt_of_le_of_lt (Nat.le_add_right _ _) room),
    cellDistance_lt_iff (Nat.le_of_lt room) inside]
  split_ifs with here
  · rw [cellDistance_of_le here.1 inside]
  · rfl

theorem Console.memmove_cells {dest src count j : Nat} (room : dest + count < cellSpace)
    (room' : src + count < cellSpace) (inside : j < cellSpace) :
    (c.memmove dest src count).cells j =
      if dest ≤ j ∧ j < dest + count then c.cells (src + (j - dest)) else c.cells j := by
  simp only [Console.memmove, cellAt_ofNat (Nat.lt_of_le_of_lt (Nat.le_add_right _ _) room),
    cellAt_ofNat (Nat.lt_of_le_of_lt (Nat.le_add_right _ _) room'),
    cellAt_ofNat (Nat.lt_of_le_of_lt (Nat.le_add_left _ _) room),
    cellDistance_lt_iff (Nat.le_of_lt room) inside]
  split_ifs with here
  · rw [cellDistance_of_le here.1 inside, Nat.mod_eq_of_lt (by omega)]
  · rfl

/-- The cells from `p` to `q` move by `d` towards the start of the buffer. -/
theorem Console.shiftUp_cells {p q d : Nat} (area : p + d ≤ q) (small : q < cellSpace)
    {dest src count fill : Int} (isDest : dest = p) (isSrc : src = p + d)
    (isCount : count = q - d - p) (isFill : fill = q - d) (blank : ConsoleCell) {j : Nat}
    (inside : j < cellSpace) :
    ((c.memmove dest src count).store fill d fun _ => blank).cells j =
      if q - d ≤ j ∧ j < q then blank
      else if p ≤ j ∧ j < q - d then c.cells (j + d) else c.cells j := by
  obtain rfl : src = (p + d : Nat) := by omega
  obtain rfl : count = (q - d - p : Nat) := by omega
  obtain rfl : fill = (q - d : Nat) := by omega
  rw [isDest, Console.store_cells (by omega) inside,
    Console.memmove_cells (by omega) (by omega) inside]
  split_ifs <;> first | rfl | omega | (apply congrArg c.cells; omega)

/-- The cells from `p` to `q` move by `d` towards the end of the buffer. -/
theorem Console.shiftDown_cells {p q d : Nat} (area : p + d ≤ q) (small : q < cellSpace)
    {dest src count : Int} (isDest : dest = p + d) (isSrc : src = p)
    (isCount : count = q - p - d) (blank : ConsoleCell) {j : Nat} (inside : j < cellSpace) :
    ((c.memmove dest src count).store src d fun _ => blank).cells j =
      if p ≤ j ∧ j < p + d then blank
      else if p + d ≤ j ∧ j < q then c.cells (j - d) else c.cells j := by
  obtain rfl : dest = (p + d : Nat) := by omega
  obtain rfl : count = (q - p - d : Nat) := by omega
  rw [isSrc, Console.store_cells (by omega) inside,
    Console.memmove_cells (by omega) (by omega) inside]
  split_ifs <;> first | rfl | omega | (apply congrArg c.cells; omega)

end Cells

section Rows

variable {c : Console}

theorem mul_row_le {x row i m : Nat} (column : i < x) : x * m ≤ x * row + i ↔ m ≤ row := by
  constructor
  · intro le
    by_contra less
    have : x * row + x ≤ x * m := by
      rw [← Nat.mul_succ]
      exact Nat.mul_le_mul_left x (by omega)
    omega
  · intro le
    exact Nat.le_trans (Nat.mul_le_mul_left x le) (Nat.le_add_right _ _)

theorem row_lt_mul {x row i m : Nat} (column : i < x) : x * row + i < x * m ↔ row < m := by
  rw [← Nat.not_le, mul_row_le column, Nat.not_le]

theorem Console.bufferRow_congr {r : Console} {row row' : Nat}
    (columns : r.config.x = c.config.x)
    (cells : ∀ i < c.config.x, r.cells (c.config.x * row + i) = c.cells (c.config.x * row' + i)) :
    r.bufferRow row = c.bufferRow row' := by
  unfold Console.bufferRow
  rw [columns]
  apply List.map_congr_left
  intro i hi
  exact cells i (List.mem_range.mp hi)

theorem Console.bufferRow_blank {r : Console} {row x : Nat} {blank : ConsoleCell}
    (columns : r.config.x = x) (cells : ∀ i < x, r.cells (x * row + i) = blank) :
    r.bufferRow row = List.replicate x blank := by
  unfold Console.bufferRow
  rw [columns]
  apply List.eq_replicate_iff.mpr
  refine ⟨by simp, ?_⟩
  intro cell hcell
  obtain ⟨i, hi, rfl⟩ := List.mem_map.mp hcell
  exact cells i (List.mem_range.mp hi)

/-- The rows from `p` to `q` of the buffer move by `n` towards its start. -/
theorem Console.shiftUp_rows {p q n : Nat} (area : p + n ≤ q) (small : c.config.x * q < cellSpace)
    {dest src count fill : Int} (isDest : dest = (c.config.x * p : Nat))
    (isSrc : src = (c.config.x * p : Nat) + (c.config.x * n : Nat))
    (isCount : count = (c.config.x * q : Nat) - (c.config.x * n : Nat) - (c.config.x * p : Nat))
    (isFill : fill = (c.config.x * q : Nat) - (c.config.x * n : Nat)) (blank : ConsoleCell)
    {row : Nat} (inside : c.config.x * row + c.config.x < cellSpace) :
    ((c.memmove dest src count).store fill (c.config.x * n) fun _ => blank).bufferRow row =
      if q - n ≤ row ∧ row < q then List.replicate c.config.x blank
      else if p ≤ row ∧ row < q - n then c.bufferRow (row + n) else c.bufferRow row := by
  have area' : c.config.x * p + c.config.x * n ≤ c.config.x * q := by
    rw [← Nat.mul_add]
    exact Nat.mul_le_mul_left _ area
  have cells : ∀ i < c.config.x,
      ((c.memmove dest src count).store fill (c.config.x * n) fun _ => blank).cells
          (c.config.x * row + i) =
        if q - n ≤ row ∧ row < q then blank
        else if p ≤ row ∧ row < q - n then c.cells (c.config.x * (row + n) + i)
        else c.cells (c.config.x * row + i) := by
    intro i column
    rw [Console.shiftUp_cells area' small isDest isSrc isCount isFill blank (by omega),
      Nat.mul_add, Nat.add_right_comm]
    simp only [← Nat.mul_sub, mul_row_le column, row_lt_mul column]
  generalize result : ((c.memmove dest src count).store fill (c.config.x * n) fun _ => blank) = r
    at cells ⊢
  have columns : r.config.x = c.config.x := by rw [← result]; rfl
  split_ifs with vacated shifted
  · apply Console.bufferRow_blank columns
    intro i column
    rw [cells i column, if_pos vacated]
  · apply Console.bufferRow_congr columns
    intro i column
    rw [cells i column, if_neg vacated, if_pos shifted]
  · apply Console.bufferRow_congr columns
    intro i column
    rw [cells i column, if_neg vacated, if_neg shifted]

/-- The rows from `p` to `q` of the buffer move by `n` towards its end. -/
theorem Console.shiftDown_rows {p q n : Nat} (area : p + n ≤ q)
    (small : c.config.x * q < cellSpace) {dest src count : Int}
    (isDest : dest = (c.config.x * p : Nat) + (c.config.x * n : Nat))
    (isSrc : src = (c.config.x * p : Nat))
    (isCount : count = (c.config.x * q : Nat) - (c.config.x * p : Nat) - (c.config.x * n : Nat))
    (blank : ConsoleCell) {row : Nat} (inside : c.config.x * row + c.config.x < cellSpace) :
    ((c.memmove dest src count).store src (c.config.x * n) fun _ => blank).bufferRow row =
      if p ≤ row ∧ row < p + n then List.replicate c.config.x blank
      else if p + n ≤ row ∧ row < q then c.bufferRow (row - n) else c.bufferRow row := by
  have area' : c.config.x * p + c.config.x * n ≤ c.config.x * q := by
    rw [← Nat.mul_add]
    exact Nat.mul_le_mul_left _ area
  have cells : ∀ i < c.config.x,
      ((c.memmove dest src count).store src (c.config.x * n) fun _ => blank).cells
          (c.config.x * row + i) =
        if p ≤ row ∧ row < p + n then blank
        else if p + n ≤ row ∧ row < q then c.cells (c.config.x * row + i - c.config.x * n)
        else c.cells (c.config.x * row + i) := by
    intro i column
    rw [Console.shiftDown_cells area' small isDest isSrc isCount blank (by omega)]
    simp only [← Nat.mul_add, mul_row_le column, row_lt_mul column]
  generalize result : ((c.memmove dest src count).store src (c.config.x * n) fun _ => blank) = r
    at cells ⊢
  have columns : r.config.x = c.config.x := by rw [← result]; rfl
  split_ifs with vacated shifted
  · apply Console.bufferRow_blank columns
    intro i column
    rw [cells i column, if_pos vacated]
  · apply Console.bufferRow_congr columns
    intro i column
    rw [cells i column, if_neg vacated, if_pos shifted, Nat.mul_sub, Nat.sub_add_comm]
    exact Nat.mul_le_mul_left _ (by omega)
  · apply Console.bufferRow_congr columns
    intro i column
    rw [cells i column, if_neg vacated, if_neg shifted]

end Rows

section Scrolls

variable {c : Console}

/-- What a scroll up is for: the rows of the region move, and what leaves the top of the whole
screen goes to the scrollback, which loses its oldest rows. -/
structure Console.ScrolledUp (c : Console) (top bottom lines : Nat) (blank : ConsoleCell)
    (op : ConsoleOp) : Prop where
  rc : op.rc = .ok
  screen : op.console.screenRows =
    rowsUp top (bottom + 1) lines (List.replicate c.config.x blank) c.screenRows
  scrollback : op.console.scrollbackRows =
    if top = 0 ∧ bottom + 1 = c.config.y then
      (c.scrollbackRows ++ c.screenRows.take lines).drop lines
    else c.scrollbackRows

/-- What a scroll down is for. -/
structure Console.ScrolledDown (c : Console) (top bottom lines : Nat) (blank : ConsoleCell)
    (op : ConsoleOp) : Prop where
  rc : op.rc = .ok
  screen : op.console.screenRows =
    rowsDown top (bottom + 1) lines (List.replicate c.config.x blank) c.screenRows
  scrollback : op.console.scrollbackRows = c.scrollbackRows

theorem ConsoleConfig.screen_row (g : ConsoleConfig) (t : Nat) :
    g.screen + g.x * t = g.x * (g.maxY - g.y + t) := by
  rw [ConsoleConfig.screen, Nat.mul_comm, ← Nat.mul_add]

theorem Console.screenRows_up {r : Console} {t b n : Nat} {blank : List ConsoleCell}
    (config : r.config = c.config) (rows : c.config.y ≤ c.config.maxY) (area : t + n ≤ b)
    (inside : b ≤ c.config.y)
    (h : ∀ row < c.config.maxY, c.config.maxY - c.config.y ≤ row → r.bufferRow row =
      if c.config.maxY - c.config.y + b - n ≤ row ∧ row < c.config.maxY - c.config.y + b then blank
      else if c.config.maxY - c.config.y + t ≤ row ∧
          row < c.config.maxY - c.config.y + b - n then c.bufferRow (row + n)
      else c.bufferRow row) :
    r.screenRows = rowsUp t b n blank c.screenRows := by
  unfold Console.screenRows
  rw [config]
  apply rowsUp_range area inside
  intro row below
  rw [h _ (by omega) (by omega)]
  split_ifs <;> first | rfl | omega | (apply congrArg c.bufferRow; omega)

theorem Console.screenRows_down {r : Console} {t b n : Nat} {blank : List ConsoleCell}
    (config : r.config = c.config) (rows : c.config.y ≤ c.config.maxY) (area : t + n ≤ b)
    (inside : b ≤ c.config.y)
    (h : ∀ row < c.config.maxY, c.config.maxY - c.config.y ≤ row → r.bufferRow row =
      if c.config.maxY - c.config.y + t ≤ row ∧ row < c.config.maxY - c.config.y + t + n then blank
      else if c.config.maxY - c.config.y + t + n ≤ row ∧
          row < c.config.maxY - c.config.y + b then c.bufferRow (row - n)
      else c.bufferRow row) :
    r.screenRows = rowsDown t b n blank c.screenRows := by
  unfold Console.screenRows
  rw [config]
  apply rowsDown_range area inside
  intro row below
  rw [h _ (by omega) (by omega)]
  split_ifs <;> first | rfl | omega | (apply congrArg c.bufferRow; omega)

theorem Console.scrollbackRows_congr {r : Console} (config : r.config = c.config)
    (h : ∀ row < c.config.maxY - c.config.y, r.bufferRow row = c.bufferRow row) :
    r.scrollbackRows = c.scrollbackRows := by
  unfold Console.scrollbackRows
  rw [config]
  apply List.map_congr_left
  intro row below
  exact h row (List.mem_range.mp below)

/-- The rows of the buffer are those of the scrollback and of the screen. -/
theorem Console.scrollbackRows_shift {r : Console} {n : Nat} (config : r.config = c.config)
    (rows : c.config.y ≤ c.config.maxY) (few : n ≤ c.config.y)
    (h : ∀ row < c.config.maxY - c.config.y, r.bufferRow row = c.bufferRow (row + n)) :
    r.scrollbackRows = (c.scrollbackRows ++ c.screenRows.take n).drop n := by
  unfold Console.scrollbackRows Console.screenRows
  rw [config]
  apply List.ext_getElem
  · simp
    omega
  intro i h1 h2
  have below : i < c.config.maxY - c.config.y := by simpa using h1
  simp only [List.getElem_map, List.getElem_range, List.getElem_drop, List.getElem_append,
    List.getElem_take, List.length_map, List.length_range, h i below]
  split_ifs <;> (apply congrArg c.bufferRow; omega)

/-- A scroll of a region up, with a request that is not refused. -/
theorem Console.scrollUp_region {top bottom lines : Nat} {blank : ConsoleCell}
    (fits : c.config.Fits) (rows : c.config.y ≤ c.config.maxY) (area : top + lines ≤ bottom + 1)
    (inside : bottom < c.config.y) (region : top ≠ 0 ∨ bottom + 1 ≠ c.config.y)
    (accepted : top + lines < c.config.maxY) :
    c.ScrolledUp top bottom lines blank (coConsoleOp (.scrollUp top bottom lines blank) c) := by
  have last := c.config.screen_row
  have bound : c.config.x * (c.config.maxY - c.config.y + (bottom + 1)) < cellSpace :=
    Nat.lt_of_le_of_lt (Nat.mul_le_mul_left _ (by omega)) fits.cells_lt
  have moved := fun row (below : row < c.config.maxY) =>
    @Console.shiftUp_rows c (c.config.maxY - c.config.y + top)
      (c.config.maxY - c.config.y + (bottom + 1)) lines (by omega) bound
      (c.config.screen + c.config.x * top)
      (c.config.screen + c.config.x * top + (c.config.x * lines : Nat))
      (c.config.x * (bottom + 1 : Nat) - (c.config.x * lines : Nat) - c.config.x * top)
      (c.config.screen + (c.config.x * (bottom + 1 : Nat) - (c.config.x * lines : Nat)))
      (by rw [← last]; push_cast; rfl) (by rw [← last]; push_cast; rfl)
      (by rw [← last, ← last]; push_cast; omega)
      (by rw [← last]; push_cast; omega) blank row (fits.row_lt below)
  simp only [coConsoleOp, Console.scrollUp]
  rw [if_pos region, if_neg (by omega), if_neg (by omega), fits.lines (by omega)]
  refine ⟨rfl, Console.screenRows_up rfl rows area inside (fun row below _ => moved row below), ?_⟩
  rw [if_neg (by omega)]
  refine Console.scrollbackRows_congr (c := c) rfl ?_
  intro row below
  rw [moved row (by omega), if_neg (by omega), if_neg (by omega)]

/-- A scroll of the whole screen up takes the scrollback along. -/
theorem Console.scrollUp_shell {lines bottom : Nat} {blank : ConsoleCell} (fits : c.config.Fits)
    (rows : c.config.y ≤ c.config.maxY) (few : lines ≤ c.config.y)
    (whole : bottom + 1 = c.config.y) :
    c.ScrolledUp 0 bottom lines blank (coConsoleOp (.scrollUp 0 bottom lines blank) c) := by
  have moved := fun row (below : row < c.config.maxY) =>
    @Console.shiftUp_rows c 0 c.config.maxY lines (by omega) fits.cells_lt 0
      (c.config.x * lines : Nat) (c.config.x * c.config.maxY - (c.config.x * lines : Nat))
      (c.config.x * c.config.maxY - (c.config.x * lines : Nat)) rfl (by simp) (by push_cast; simp)
      (by push_cast; rfl) blank row (fits.row_lt below)
  simp only [coConsoleOp, Console.scrollUp]
  rw [if_neg (by omega), fits.lines (by omega)]
  refine ⟨rfl, ?_, ?_⟩
  · refine Console.screenRows_up (c := c) (t := 0) (b := bottom + 1) (n := lines) rfl rows
      (by omega) (by omega) ?_
    intro row below onScreen
    refine (moved row below).trans ?_
    split_ifs <;> first | rfl | omega
  · rw [if_pos ⟨rfl, whole⟩]
    refine Console.scrollbackRows_shift (c := c) rfl rows few ?_
    intro row below
    rw [moved row (by omega), if_neg (by omega), if_pos (by omega)]

/-- A scroll down that is not refused: the two branches move the same cells. -/
theorem Console.scrollDown_area {top bottom lines : Nat} {blank : ConsoleCell}
    (fits : c.config.Fits) (rows : c.config.y ≤ c.config.maxY) (area : top + lines ≤ bottom + 1)
    (inside : bottom < c.config.y)
    (accepted : (top = 0 ∧ bottom + 1 = c.config.y) ∨ top + lines < c.config.maxY) :
    c.ScrolledDown top bottom lines blank
      (coConsoleOp (.scrollDown top bottom lines blank) c) := by
  have last := c.config.screen_row
  have bound : c.config.x * (c.config.maxY - c.config.y + (bottom + 1)) < cellSpace :=
    Nat.lt_of_le_of_lt (Nat.mul_le_mul_left _ (by omega)) fits.cells_lt
  have moved := fun row (below : row < c.config.maxY) =>
    @Console.shiftDown_rows c (c.config.maxY - c.config.y + top)
      (c.config.maxY - c.config.y + (bottom + 1)) lines (by omega) bound
      (c.config.screen + c.config.x * top + (c.config.x * lines : Nat))
      (c.config.screen + c.config.x * top)
      (c.config.x * (bottom + 1 : Nat) - c.config.x * top - (c.config.x * lines : Nat))
      (by rw [← last]; push_cast; rfl) (by rw [← last]; push_cast; rfl)
      (by rw [← last, ← last]; push_cast; omega) blank row (fits.row_lt below)
  have result : coConsoleOp (.scrollDown top bottom lines blank) c =
      ⟨.ok, (c.memmove (c.config.screen + c.config.x * top + (c.config.x * lines : Nat))
        (c.config.screen + c.config.x * top)
        (c.config.x * (bottom + 1 : Nat) - c.config.x * top - (c.config.x * lines : Nat))).store
          (c.config.screen + c.config.x * top) (c.config.x * lines) fun _ => blank,
        .scrollDown top bottom lines blank⟩ := by
    simp only [coConsoleOp, Console.scrollDown, fits.lines (show lines ≤ c.config.maxY by omega)]
    by_cases whole : top = 0 ∧ bottom + 1 = c.config.y
    · obtain ⟨rfl, whole⟩ := whole
      rw [if_neg (by omega), whole]
      simp
    · rw [if_pos (by omega), if_neg (by omega), if_neg (by omega)]
  rw [result]
  refine ⟨rfl,
    Console.screenRows_down rfl rows area inside (fun row below _ => moved row below), ?_⟩
  refine Console.scrollbackRows_congr (c := c) rfl ?_
  intro row below
  rw [moved row (by omega), if_neg (by omega), if_neg (by omega)]

/-- A scroll is what it should be unless it is of a region below the first row, all of its rows
leave it, and it reaches row `max_y`. -/
theorem scroll_iff (fits : c.config.Fits) (rows : c.config.y ≤ c.config.maxY)
    {top bottom lines : Nat} (ordered : top ≤ bottom) (inside : bottom < c.config.y)
    (area : lines ≤ bottom - top + 1) (blank : ConsoleCell) :
    (c.ScrolledUp top bottom lines blank (coConsoleOp (.scrollUp top bottom lines blank) c) ↔
      ¬(top ≠ 0 ∧ top + lines = c.config.maxY)) ∧
    (c.ScrolledDown top bottom lines blank (coConsoleOp (.scrollDown top bottom lines blank) c) ↔
      ¬(top ≠ 0 ∧ top + lines = c.config.maxY)) := by
  refine ⟨⟨?_, ?_⟩, ?_, ?_⟩
  · rintro scrolled ⟨below, full⟩
    have rc := scrolled.rc
    simp only [coConsoleOp, Console.scrollUp] at rc
    rw [if_pos (.inl below), if_neg (by omega), if_pos (by omega)] at rc
    contradiction
  · intro accepted
    by_cases whole : top = 0 ∧ bottom + 1 = c.config.y
    · obtain ⟨rfl, whole⟩ := whole
      exact Console.scrollUp_shell fits rows (by omega) whole
    · exact Console.scrollUp_region fits rows (by omega) inside (by omega) (by omega)
  · rintro scrolled ⟨below, full⟩
    have rc := scrolled.rc
    simp only [coConsoleOp, Console.scrollDown] at rc
    rw [if_pos (.inl below), if_neg (by omega), if_pos (by omega)] at rc
    contradiction
  · intro accepted
    exact Console.scrollDown_area fits rows (by omega) inside (by omega)

end Scrolls

/-- A console of `cocon=16x4x6` in which no two cells are the same. -/
def numberedConsole : Console := { coConsoleCreate ⟨16, 4, 6, 7⟩ with cells := fun i => i }

/-- Its first row goes to the scrollback, and its rows 1 and 2 go one row down. -/
theorem scroll_iff_numberedConsole :
    numberedConsole.ScrolledUp 0 3 1 0x20 (coConsoleOp (.scrollUp 0 3 1 0x20) numberedConsole) ∧
      numberedConsole.ScrolledDown 1 3 1 0x20
        (coConsoleOp (.scrollDown 1 3 1 0x20) numberedConsole) := by
  constructor
  · refine (scroll_iff ?_ ?_ ?_ ?_ ?_ 0x20).1.mpr ?_ <;> decide
  · refine (scroll_iff ?_ ?_ ?_ ?_ ?_ 0x20).2.mpr ?_ <;> decide

/-- A console without a scrollback: `cocon=16x2x2`. -/
def flatConsole : Console := coConsoleCreate ⟨16, 2, 2, 7⟩

/-- Its last row cannot be scrolled away. -/
theorem scrollLastRow_refused :
    (coConsoleOp (.scrollUp 1 1 1 0x20) flatConsole).rc = .error ∧
      ¬flatConsole.ScrolledUp 1 1 1 0x20 (coConsoleOp (.scrollUp 1 1 1 0x20) flatConsole) := by
  refine ⟨by decide, ?_⟩
  intro scrolled
  have rc := scrolled.rc
  revert rc
  decide

end CoLinux
