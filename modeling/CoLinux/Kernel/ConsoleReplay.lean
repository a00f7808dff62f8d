import CoLinux.Common.ConsoleSafety

/-!
# Replaying the kernel shadow console (`co_monitor_user_get_console`)

A console program that attaches gets the kernel's shadow as messages: rows of the buffer, the
rows of the screen, and the cursor. The first loop starts at row `config_y` of the buffer, so
`sentRow` has no message for the rows before it that are not part of the screen.
-/

namespace CoLinux

open Lib

/-- Row numbers and counts of a message are `co_console_unit`s. -/
abbrev consoleUnit : Nat := 65536

/-- The message with row `row` of the buffer as its data. -/
def Console.rowData (c : Console) (row : Nat) : Nat → ConsoleCell :=
  fun i => c.cells (c.config.x * row + i)

/-- `co_monitor_user_get_console`: the messages it emits, oldest first, or nothing when it gets
no memory for them. -/
def coMonitorUserGetConsole (allocated : Bool) (c : Console) : Option (List ConsoleMessage) :=
  let g := c.config
  if allocated then
    some ((List.range' g.y (g.maxY - g.y)).map (fun y =>
        .initScrollbuffer (y % consoleUnit) 0 (g.x % consoleUnit) (c.rowData y)) ++
      (List.range g.y).map (fun y =>
        .putcs (y % consoleUnit) 0 (g.x % consoleUnit) (c.rowData (g.maxY - g.y + y))) ++
      [.cursor c.cursor])
  else none

/-- `r` shows what `c` shows: the viewable screen, the scrollback rows and the cursor. -/
structure Console.SameView (c r : Console) : Prop where
  screen : ∀ row < c.config.y, ∀ i < c.config.x,
    r.cells (c.config.screen + c.config.x * row + i) =
      c.cells (c.config.screen + c.config.x * row + i)
  scrollback : ∀ row < c.config.maxY - c.config.y, ∀ i < c.config.x,
    r.cells (c.config.x * row + i) = c.cells (c.config.x * row + i)
  cursor : r.cursor = c.cursor

/-- The buffer row each message is for, with the buffer row whose cells it carries. -/
def ConsoleConfig.sentRows (g : ConsoleConfig) : List (Nat × Nat) :=
  (List.range' g.y (g.maxY - g.y)).map (fun y => (y % consoleUnit, y)) ++
    (List.range g.y).map fun y => (g.maxY - g.y + y % consoleUnit, g.maxY - g.y + y)

/-- The row that the last message for buffer row `row` carries. -/
def ConsoleConfig.sentRow (g : ConsoleConfig) (row : Nat) : Option Nat :=
  (g.sentRows.reverse.find? fun sent => sent.1 = row).map Prod.snd

/-- The cells that no message carries are zero, and rows that share a number are equal. -/
def Console.Carried (c : Console) : Prop :=
  ∀ row < c.config.maxY, ∀ i < c.config.x,
    c.rowData row i =
      match c.config.sentRow row with
      | some sent => if i < c.config.x % consoleUnit then c.rowData sent i else 0
      | none => 0

section Rows

variable {g : ConsoleConfig} {c : Console}

/-- Assignments to a row change the first `count` cells of that row. -/
theorem Console.store_row (fits : g.Fits) {row target i count : Nat} (inside : target < g.maxY)
    (column : i < g.x) (narrow : count ≤ g.x) (data : Nat → ConsoleCell) (below : row < g.maxY) :
    (c.store (g.x * target : Nat) count data).cells (g.x * row + i) =
      if row = target ∧ i < count then data i else c.cells (g.x * row + i) := by
  have room := fits.row_lt inside
  have reach := fits.row_lt below
  have start : cellAt (g.x * target : Nat) = g.x * target :=
    Int.ofNat_inj.mp (cellAt_of_lt (Int.natCast_nonneg _) (Int.ofNat_lt.mpr (by omega)))
  simp only [Console.store, start]
  rcases Nat.lt_trichotomy row target with before | rfl | after
  · have above : g.x * row + g.x ≤ g.x * target := by
      rw [← Nat.mul_succ]
      exact Nat.mul_le_mul_left g.x before
    have far : count ≤ cellDistance (g.x * target) (g.x * row + i) :=
      le_cellDistance (by omega) (by omega)
    rw [if_neg (by omega), if_neg (by omega)]
  · rw [cellDistance_of_le (by omega) (by omega), Nat.add_sub_cancel_left]
    simp only [true_and]
  · have above : g.x * target + g.x ≤ g.x * row := by
      rw [← Nat.mul_succ]
      exact Nat.mul_le_mul_left g.x after
    rw [cellDistance_of_le (by omega) (by omega), if_neg (by omega), if_neg (by omega)]

/-- A row sent to a console of the configuration `g` of the shadow `c`. -/
def Console.receiveRow (c : Console) (sent : Nat × Nat) (r : Console) : Console :=
  r.store (c.config.x * sent.1 : Nat) (c.config.x % consoleUnit) (c.rowData sent.2)

/-- The messages of the first loop. -/
theorem Console.receiveRow_initScrollbuffer (wide : 0 < c.config.x)
    (rows : c.config.y ≤ c.config.maxY) :
    ∀ y ∈ List.range' c.config.y (c.config.maxY - c.config.y), ∀ r, r.config = c.config →
      (coConsoleOp (.initScrollbuffer (y % consoleUnit) 0 (c.config.x % consoleUnit) (c.rowData y))
        r).console = c.receiveRow (y % consoleUnit, y) r := by
  intro y hy r config
  have inside := List.mem_range'_1.mp hy
  have low := Nat.mod_le y consoleUnit
  have narrow := Nat.mod_le c.config.x consoleUnit
  simp only [coConsoleOp, Console.putCells, Console.receiveRow, config, Nat.sub_zero]
  rw [if_neg (by omega), Nat.min_eq_left narrow]
  simp

/-- The messages of the second loop. -/
theorem Console.receiveRow_putcs (wide : 0 < c.config.x) :
    ∀ y ∈ List.range c.config.y, ∀ r, r.config = c.config →
      (coConsoleOp (.putcs (y % consoleUnit) 0 (c.config.x % consoleUnit)
        (c.rowData (c.config.maxY - c.config.y + y))) r).console =
        c.receiveRow (c.config.maxY - c.config.y + y % consoleUnit,
          c.config.maxY - c.config.y + y) r := by
  intro y hy r config
  have inside := List.mem_range.mp hy
  have low := Nat.mod_le y consoleUnit
  have narrow := Nat.mod_le c.config.x consoleUnit
  simp only [coConsoleOp, Console.putCells, Console.receiveRow, config, Nat.sub_zero,
    ConsoleConfig.screen]
  rw [if_neg (by omega), Nat.min_eq_left narrow, Nat.mul_comm _ c.config.x, Nat.mul_add]
  rfl

/-- Messages that each carry a row. -/
theorem consoleRun_receive {f : Nat → ConsoleMessage} {t : Nat → Nat × Nat} {ks : List Nat}
    (row : ∀ k ∈ ks, ∀ r, r.config = c.config →
      (coConsoleOp (f k) r).console = c.receiveRow (t k) r) {r : Console}
    (config : r.config = c.config) :
    consoleRun (ks.map f) r = (ks.map t).foldl (fun r sent => c.receiveRow sent r) r := by
  induction ks generalizing r with
  | nil => rfl
  | cons k ks ih =>
    have first := row k List.mem_cons_self r config
    simp only [consoleRun, List.map_cons, run_cons, List.foldl_cons] at ih ⊢
    rw [first]
    exact ih (fun k hk => row k (List.mem_cons_of_mem _ hk)) config

theorem receiveRows_config (c : Console) (rows : List (Nat × Nat)) (r : Console) :
    (rows.foldl (fun r sent => c.receiveRow sent r) r).config = r.config := by
  induction rows generalizing r with
  | nil => rfl
  | cons sent rows ih => exact ih (c.receiveRow sent r)

/-- The last row received for a buffer row is the one that stays. -/
theorem receiveRows_cells (fits : c.config.Fits) {row i : Nat} (below : row < c.config.maxY)
    (column : i < c.config.x) {rows : List (Nat × Nat)}
    (inside : ∀ sent ∈ rows, sent.1 < c.config.maxY) (r : Console) :
    (rows.foldl (fun r sent => c.receiveRow sent r) r).cells (c.config.x * row + i) =
      match (rows.reverse.find? fun sent => sent.1 = row).map Prod.snd with
      | some sent => if i < c.config.x % consoleUnit then c.rowData sent i
          else r.cells (c.config.x * row + i)
      | none => r.cells (c.config.x * row + i) := by
  induction rows generalizing r with
  | nil => rfl
  | cons sent rows ih =>
    have stored := Console.store_row (c := r) fits (inside sent List.mem_cons_self) column
      (Nat.mod_le _ consoleUnit) (c.rowData sent.2) below
    rw [List.foldl_cons, ih (fun s hs => inside s (List.mem_cons_of_mem _ hs)),
      List.reverse_cons, List.find?_append]
    cases later : rows.reverse.find? fun sent => sent.1 = row with
    | some last =>
      by_cases carried : i < c.config.x % consoleUnit
      · simp only [Option.map_some, Option.some_or, carried, if_true]
      · simp only [Option.map_some, Option.some_or, carried, if_false]
        rw [Console.receiveRow, stored, if_neg (fun h => carried h.2)]
    | none =>
      simp only [Option.map_none, Option.none_or, Console.receiveRow, stored]
      by_cases this : sent.1 = row
      · simp [this]
      · simp [this, Ne.symm this]

end Rows

theorem ConsoleConfig.sentRows_inside {g : ConsoleConfig} (rows : g.y ≤ g.maxY) :
    ∀ sent ∈ g.sentRows, sent.1 < g.maxY := by
  intro sent h
  rcases List.mem_append.mp h with h | h
  · obtain ⟨y, hy, rfl⟩ := List.mem_map.mp h
    have low := Nat.mod_le y consoleUnit
    have bounds := List.mem_range'_1.mp hy
    dsimp only
    omega
  · obtain ⟨y, hy, rfl⟩ := List.mem_map.mp h
    have low := Nat.mod_le y consoleUnit
    have bound := List.mem_range.mp hy
    dsimp only
    omega

/-- The messages on a fresh console: its rows are those that were sent, its cursor the shadow's. -/
theorem replay_eq {c : Console} (wide : 0 < c.config.x) (rows : c.config.y ≤ c.config.maxY)
    {messages : List ConsoleMessage} (sent : coMonitorUserGetConsole true c = some messages) :
    consoleRun messages (coConsoleCreate c.config) =
      { c.config.sentRows.foldl (fun r sent => c.receiveRow sent r) (coConsoleCreate c.config) with
        cursor := c.cursor } := by
  obtain rfl := Option.some.inj sent
  rw [ConsoleConfig.sentRows, List.foldl_append,
    ← consoleRun_receive (Console.receiveRow_putcs wide)
      (receiveRows_config c _ (coConsoleCreate c.config)),
    ← consoleRun_receive (Console.receiveRow_initScrollbuffer wide rows)
      (show (coConsoleCreate c.config).config = c.config from rfl)]
  simp only [consoleRun, run_append]
  rfl

/-- What a fresh console shows after the messages. -/
theorem replay_cells {c : Console} (fits : c.config.Fits) (rows : c.config.y ≤ c.config.maxY)
    {messages : List ConsoleMessage} (sent : coMonitorUserGetConsole true c = some messages)
    {row i : Nat} (below : row < c.config.maxY) (column : i < c.config.x) :
    (consoleRun messages (coConsoleCreate c.config)).cells (c.config.x * row + i) =
      match c.config.sentRow row with
      | some sent => if i < c.config.x % consoleUnit then c.rowData sent i else 0
      | none => 0 := by
  rw [replay_eq (Nat.zero_lt_of_lt column) rows sent]
  exact receiveRows_cells fits below column (ConsoleConfig.sentRows_inside rows) _

theorem replay_cursor {c : Console} {messages : List ConsoleMessage}
    (sent : coMonitorUserGetConsole true c = some messages) (r : Console) :
    (consoleRun messages r).cursor = c.cursor := by
  obtain rfl := Option.some.inj sent
  simp only [consoleRun, run_append]
  rfl

/-- The attached console shows what the shadow shows exactly when everything is carried. -/
theorem replay_sameView_iff {c : Console} (fits : c.config.Fits) (rows : c.config.y ≤ c.config.maxY)
    {messages : List ConsoleMessage} (sent : coMonitorUserGetConsole true c = some messages) :
    c.SameView (consoleRun messages (coConsoleCreate c.config)) ↔ c.Carried := by
  have screen_row (row i : Nat) : c.config.screen + c.config.x * row + i =
      c.config.x * (c.config.maxY - c.config.y + row) + i := by
    rw [ConsoleConfig.screen, Nat.mul_comm _ c.config.x, Nat.mul_add]
  constructor
  · rintro ⟨screen, scrollback, -⟩ row below i column
    rw [← replay_cells fits rows sent below column]
    rcases Nat.lt_or_ge row (c.config.maxY - c.config.y) with early | late
    · exact (scrollback row early i column).symm
    · have same := screen (row - (c.config.maxY - c.config.y)) (by omega) i column
      rw [screen_row, Nat.add_sub_cancel' late] at same
      exact same.symm
  · intro carried
    refine ⟨fun row hrow i column => ?_, fun row hrow i column => ?_, replay_cursor sent _⟩
    · rw [screen_row, replay_cells fits rows sent (by omega) column]
      exact (carried _ (by omega) i column).symm
    · rw [replay_cells fits rows sent (by omega) column]
      exact (carried row (by omega) i column).symm

/-- On a console whose columns and rows have 16 bit numbers, the scrollback rows that the first
loop skips have to be empty. -/
theorem carried_iff {c : Console} (columns : c.config.x < consoleUnit)
    (numbered : c.config.maxY ≤ consoleUnit) (rows : c.config.y ≤ c.config.maxY) :
    c.Carried ↔ ∀ row < min c.config.y (c.config.maxY - c.config.y), ∀ i < c.config.x,
      c.rowData row i = 0 := by
  have narrow : c.config.x % consoleUnit = c.config.x := Nat.mod_eq_of_lt columns
  have own {sent : Nat × Nat} (h : sent ∈ c.config.sentRows) : sent.1 = sent.2 ∧
      (c.config.y ≤ sent.1 ∨ c.config.maxY - c.config.y ≤ sent.1) := by
    rcases List.mem_append.mp h with h | h
    · obtain ⟨y, hy, rfl⟩ := List.mem_map.mp h
      have bounds := List.mem_range'_1.mp hy
      have whole : y % consoleUnit = y := Nat.mod_eq_of_lt (by omega)
      exact ⟨whole, .inl (whole.symm ▸ bounds.1)⟩
    · obtain ⟨y, hy, rfl⟩ := List.mem_map.mp h
      have bound := List.mem_range.mp hy
      have whole : y % consoleUnit = y := Nat.mod_eq_of_lt (by omega)
      exact ⟨congrArg (c.config.maxY - c.config.y + ·) whole, .inr (Nat.le_add_right _ _)⟩
  have skipped {row : Nat} (below : row < c.config.maxY) : c.config.sentRow row =
      if row < min c.config.y (c.config.maxY - c.config.y) then none else some row := by
    unfold ConsoleConfig.sentRow
    cases found : c.config.sentRows.reverse.find? fun sent => sent.1 = row with
    | some sent =>
      have number : sent.1 = row := by simpa using List.find?_some found
      obtain ⟨same, late⟩ := own (List.mem_reverse.mp (List.mem_of_find?_eq_some found))
      rw [if_neg (by omega), Option.map_some, ← same, number]
    | none =>
      have absent (k : Nat) (h : (row, k) ∈ c.config.sentRows) : False := by
        have := List.find?_eq_none.mp found (row, k) (List.mem_reverse.mpr h)
        simp at this
      rcases Nat.lt_or_ge row (min c.config.y (c.config.maxY - c.config.y)) with early | late
      · rw [if_pos early, Option.map_none]
      exfalso
      rcases Nat.lt_or_ge row c.config.y with screen | buffer
      · refine absent row (List.mem_append.mpr (.inr (List.mem_map.mpr
          ⟨row - (c.config.maxY - c.config.y), List.mem_range.mpr (by omega), ?_⟩)))
        rw [Nat.mod_eq_of_lt (by omega), Nat.add_sub_cancel' (by omega)]
      · refine absent row (List.mem_append.mpr (.inl (List.mem_map.mpr
          ⟨row, List.mem_range'_1.mpr (by omega), ?_⟩)))
        rw [Nat.mod_eq_of_lt (by omega)]
  constructor
  · intro carried row hrow i column
    have this := carried row (by omega) i column
    rwa [skipped (by omega), if_pos hrow] at this
  · intro zero row below i column
    rw [skipped below]
    by_cases hrow : row < min c.config.y (c.config.maxY - c.config.y)
    · rw [if_pos hrow]
      exact zero row hrow i column
    · rw [if_neg hrow, narrow]
      exact (if_pos column).symm

/-- Attaching to any console that valid messages led to. -/
theorem consoleReplay_iff {g : ConsoleConfig} (fits : g.Fits) (rows : g.y ≤ g.maxY)
    {history : List ConsoleMessage} (valid : ∀ m ∈ history, m.InBounds g) {allocated : Bool}
    {messages : List ConsoleMessage}
    (sent : coMonitorUserGetConsole allocated (consoleRun history (coConsoleCreate g)) =
      some messages) :
    (consoleRun history (coConsoleCreate g)).SameView (consoleRun messages (coConsoleCreate g)) ↔
      (consoleRun history (coConsoleCreate g)).Carried := by
  have confined : (consoleRun history (coConsoleCreate g)).Confined g :=
    run_invariant (fun c m h ok => h.op fits rows ok) (coConsoleCreate_confined g)
      (runOk_of_forall valid)
  generalize consoleRun history (coConsoleCreate g) = c at sent confined
  obtain rfl := confined.config
  cases allocated with
  | false => exact absurd sent (by simp [coMonitorUserGetConsole])
  | true => exact replay_sameView_iff fits rows sent

/-- A console of two rows, with two rows behind it. -/
def smallConsole : ConsoleConfig := ⟨16, 2, 4, 7⟩

/-- A character on the screen that has not been scrolled out. -/
theorem consoleReplay_iff_smallConsole :
    ∃ messages, coMonitorUserGetConsole true
        (consoleRun [.putc 3 1 0x741] (coConsoleCreate smallConsole)) = some messages ∧
      (consoleRun [.putc 3 1 0x741] (coConsoleCreate smallConsole)).SameView
        (consoleRun messages (coConsoleCreate smallConsole)) :=
  ⟨_, rfl, (consoleReplay_iff (by decide) (by decide) (by decide)
    (show coMonitorUserGetConsole true _ = some _ from rfl)).mpr (by
      rw [carried_iff (by decide) (by decide) (by decide)]
      decide +kernel)⟩

/-- A character that was scrolled out of the screen is missing after an attach. -/
theorem scrolledOut_missing :
    (∀ m ∈ [.putc 0 0 0x741, .scrollUp 0 1 2 0x720], ConsoleMessage.InBounds smallConsole m) ∧
      ∃ messages, coMonitorUserGetConsole true (consoleRun
          [.putc 0 0 0x741, .scrollUp 0 1 2 0x720] (coConsoleCreate smallConsole)) = some messages ∧
        ¬(consoleRun [.putc 0 0 0x741, .scrollUp 0 1 2 0x720]
          (coConsoleCreate smallConsole)).SameView
            (consoleRun messages (coConsoleCreate smallConsole)) := by
  refine ⟨by decide, _, rfl, fun same => ?_⟩
  have first := same.scrollback 0 (by decide) 0 (by decide)
  revert first
  decide +kernel

end CoLinux
