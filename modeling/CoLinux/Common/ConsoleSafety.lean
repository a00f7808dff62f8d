import CoLinux.Common.Console
import CoLinux.Lib.Run

/-!
# Console memory safety

Which messages keep `co_console_op` inside the cell buffer. Four operations check their
rectangle against the wrong bound or not at all; `InBounds` says when they stay inside.
-/

namespace CoLinux

open Lib

/-- The allocation of the console holds its cells. -/
def ConsoleConfig.Fits (g : ConsoleConfig) : Prop :=
  sizeofCoConsole + sizeofConsoleCell * g.cells < wordSize

instance (g : ConsoleConfig) : Decidable g.Fits := inferInstanceAs (Decidable (_ < _))

/-- The buffer has `x * max_y` cells, and no other cell was read or written. -/
def Console.InBuffer (c : Console) : Prop :=
  sizeofCoConsole + sizeofConsoleCell * c.config.cells ≤ c.size ∧
    ∀ r ∈ c.touched, r.Inside c.config.cells

/-- A scroll of the rows `top` to `bottom` by `lines` rows: a region of the screen that is
refused, or has those lines, or is empty. -/
def ConsoleConfig.ScrollsInBounds (g : ConsoleConfig) (top bottom lines : Nat) : Prop :=
  g.maxY ≤ bottom ∨ g.maxY ≤ top + lines ∨
    top + lines ≤ bottom + 1 ∧ (bottom < g.y ∨ lines = 0 ∧ top = bottom + 1)

/-- The message makes `co_console_op` touch cells of the buffer only. -/
def ConsoleMessage.InBounds (g : ConsoleConfig) : ConsoleMessage → Prop
  | .scrollUp top bottom lines _ =>
    if top = 0 ∧ bottom + 1 = g.y then lines ≤ g.maxY else g.ScrollsInBounds top bottom lines
  | .scrollDown top bottom lines _ =>
    if top = 0 ∧ bottom + 1 = g.y then lines ≤ g.y else g.ScrollsInBounds top bottom lines
  | .clear top left bottom right _ =>
    top ≤ bottom → left ≤ right → g.x * bottom + right < g.x * g.y
  | .bmove row column top left bottom right =>
    top ≤ bottom → left = right + 1 ∨ left ≤ right ∧ g.x * bottom + right < g.x * g.y ∧
      g.x * (row + (bottom - top)) + column + (right - left) < g.x * g.y
  | _ => True

instance (g : ConsoleConfig) (m : ConsoleMessage) : Decidable (m.InBounds g) := by
  cases m <;> unfold ConsoleMessage.InBounds <;> try unfold ConsoleConfig.ScrollsInBounds
  all_goals infer_instance

/-- A console with configuration `g` that touched nothing outside its buffer. -/
structure Console.Confined (g : ConsoleConfig) (c : Console) : Prop where
  config : c.config = g
  size : c.size = g.structSize
  touched : ∀ r ∈ c.touched, r.Inside g.cells

section Accesses

variable {g : ConsoleConfig} {c : Console}

theorem ConsoleConfig.Fits.cells_lt (fits : g.Fits) : g.cells < cellSpace := by
  unfold cellSpace
  simp only [ConsoleConfig.Fits, sizeofCoConsole, sizeofConsoleCell, wordSize] at fits
  omega

theorem cellAt_of_lt {p : Int} (low : 0 ≤ p) (high : p < cellSpace) : (cellAt p : Int) = p := by
  unfold cellAt
  rw [Int.emod_eq_of_lt low high, Int.toNat_of_nonneg low]

theorem cellDistance_of_le {start j : Nat} (h : start ≤ j) (small : j < cellSpace) :
    cellDistance start j = j - start := by
  unfold cellDistance cellAt
  unfold cellSpace at *
  omega

/-- A cell before `start` is further away than the rest of the buffer is long. -/
theorem le_cellDistance {start count j : Nat} (h : j < start) (small : start + count ≤ cellSpace) :
    count ≤ cellDistance start j := by
  unfold cellDistance cellAt
  unfold cellSpace at *
  omega

theorem inside_of_bounds (fits : g.Fits) {p : Int} {count : Nat}
    (bounds : 0 < count → 0 ≤ p ∧ p + count ≤ g.cells) :
    (CellRange.mk (cellAt p) count).Inside g.cells := by
  intro i hi
  have small := fits.cells_lt
  obtain ⟨low, high⟩ := bounds (Nat.zero_lt_of_lt hi)
  have start := cellAt_of_lt low (by omega)
  generalize cellSpace = n at small
  generalize cellAt p = q at start ⊢
  have inside : q + i < g.cells := by
    have : i < count := hi
    omega
  exact Nat.lt_of_le_of_lt (Nat.mod_le _ _) inside

theorem Console.Confined.store (h : c.Confined g) (fits : g.Fits) {dest : Int} {count : Nat}
    (bounds : 0 < count → 0 ≤ dest ∧ dest + count ≤ g.cells) (data : Nat → ConsoleCell) :
    (c.store dest count data).Confined g := by
  refine ⟨h.config, h.size, fun r hr => ?_⟩
  rcases List.mem_cons.mp hr with rfl | hr
  · exact inside_of_bounds fits bounds
  · exact h.touched r hr

theorem Console.Confined.memmove (h : c.Confined g) (fits : g.Fits) {dest src count : Int}
    (nonneg : 0 ≤ count) (small : count ≤ g.cells)
    (bounds : 0 < count → (0 ≤ dest ∧ dest + count ≤ g.cells) ∧ 0 ≤ src ∧ src + count ≤ g.cells) :
    (c.memmove dest src count).Confined g := by
  have size : (cellAt count : Int) = count :=
    cellAt_of_lt nonneg (Int.lt_of_le_of_lt small (Int.ofNat_lt.mpr fits.cells_lt))
  refine ⟨h.config, h.size, fun r hr => ?_⟩
  rcases List.mem_cons.mp hr with rfl | hr
  · refine inside_of_bounds fits fun some => ?_
    rw [size]
    exact (bounds (by omega)).2
  rcases List.mem_cons.mp hr with rfl | hr
  · refine inside_of_bounds fits fun some => ?_
    rw [size]
    exact (bounds (by omega)).1
  · exact h.touched r hr

theorem ConsoleConfig.screen_add (rows : g.y ≤ g.maxY) : g.screen + g.x * g.y = g.cells := by
  unfold ConsoleConfig.screen ConsoleConfig.cells
  rw [Nat.mul_comm, ← Nat.mul_add, Nat.sub_add_cancel rows]

/-- No scroll of at most `max_y` lines wraps. -/
theorem ConsoleConfig.Fits.lines (fits : g.Fits) {lines : Nat} (few : lines ≤ g.maxY) :
    g.x * lines % wordSize = g.x * lines := by
  apply Nat.mod_eq_of_lt
  have cells : g.x * lines ≤ g.cells := Nat.mul_le_mul_left g.x few
  simp only [ConsoleConfig.Fits, sizeofConsoleCell, sizeofCoConsole] at fits
  omega

theorem ConsoleConfig.Fits.row_lt (fits : g.Fits) {row : Nat} (below : row < g.maxY) :
    g.x * row + g.x < cellSpace := by
  refine Nat.lt_of_le_of_lt ?_ fits.cells_lt
  rw [← Nat.mul_succ]
  exact Nat.mul_le_mul_left g.x below

end Accesses

section Operations

variable {g : ConsoleConfig} {c : Console}

/-- The cells of a region that is scrolled. -/
theorem ConsoleConfig.ScrollsInBounds.area {top bottom lines : Nat}
    (ok : g.ScrollsInBounds top bottom lines) (within : bottom < g.maxY)
    (few : top + lines < g.maxY) :
    g.x * top + g.x * lines ≤ g.x * (bottom + 1) ∧ g.x * (bottom + 1) ≤ g.cells ∧
      (g.x * (bottom + 1) ≤ g.x * g.y ∨ g.x * lines = 0 ∧ g.x * top = g.x * (bottom + 1)) := by
  obtain refused | refused | ⟨ordered, area⟩ := ok
  · omega
  · omega
  refine ⟨?_, Nat.mul_le_mul_left g.x within, ?_⟩
  · rw [← Nat.mul_add]
    exact Nat.mul_le_mul_left g.x ordered
  · rcases area with area | ⟨none, empty⟩
    · exact .inl (Nat.mul_le_mul_left g.x area)
    · exact .inr ⟨by rw [none, Nat.mul_zero], by rw [empty]⟩

theorem Console.Confined.scrollUp (h : c.Confined g) (fits : g.Fits) (rows : g.y ≤ g.maxY)
    {top bottom lines : Nat} {charattr : ConsoleCell}
    (ok : (ConsoleMessage.scrollUp top bottom lines charattr).InBounds g) :
    (c.scrollUp top bottom lines charattr).2.Confined g := by
  have last := g.screen_add rows
  simp only [Console.scrollUp, h.config]
  split
  · -- a region of the screen
    rename_i region
    split
    · exact h
    split
    · exact h
    have ok : g.ScrollsInBounds top bottom lines := by
      simpa only [ConsoleMessage.InBounds, if_neg (show ¬(top = 0 ∧ bottom + 1 = g.y) by omega)]
        using ok
    obtain ⟨above, inBuffer, inScreen⟩ := ok.area (by omega) (by omega)
    rw [fits.lines (by omega)]
    dsimp only
    refine (h.memmove fits ?_ ?_ ?_).store fits ?_ _ <;> omega
  · -- the whole buffer
    rename_i shell
    have ok : lines ≤ g.maxY := by
      simpa only [ConsoleMessage.InBounds, if_pos (show top = 0 ∧ bottom + 1 = g.y by omega)]
        using ok
    rw [fits.lines ok]
    have inBuffer : g.x * lines ≤ g.x * g.maxY := Nat.mul_le_mul_left g.x ok
    have all : g.x * g.maxY = g.cells := rfl
    dsimp only
    refine (h.memmove fits ?_ ?_ ?_).store fits ?_ _ <;> omega

theorem Console.Confined.scrollDown (h : c.Confined g) (fits : g.Fits) (rows : g.y ≤ g.maxY)
    {top bottom lines : Nat} {charattr : ConsoleCell}
    (ok : (ConsoleMessage.scrollDown top bottom lines charattr).InBounds g) :
    (c.scrollDown top bottom lines charattr).2.Confined g := by
  have last := g.screen_add rows
  simp only [Console.scrollDown, h.config]
  split
  · rename_i region
    split
    · exact h
    split
    · exact h
    have ok : g.ScrollsInBounds top bottom lines := by
      simpa only [ConsoleMessage.InBounds, if_neg (show ¬(top = 0 ∧ bottom + 1 = g.y) by omega)]
        using ok
    obtain ⟨above, inBuffer, inScreen⟩ := ok.area (by omega) (by omega)
    rw [fits.lines (by omega)]
    dsimp only
    refine (h.memmove fits ?_ ?_ ?_).store fits ?_ _ <;> omega
  · rename_i shell
    have ok : lines ≤ g.y := by
      simpa only [ConsoleMessage.InBounds, if_pos (show top = 0 ∧ bottom + 1 = g.y by omega)]
        using ok
    rw [fits.lines (Nat.le_trans ok rows)]
    have inScreen : g.x * lines ≤ g.x * g.y := Nat.mul_le_mul_left g.x ok
    dsimp only
    refine (h.memmove fits ?_ ?_ ?_).store fits ?_ _ <;> omega

theorem Console.Confined.putCells (h : c.Confined g) (fits : g.Fits) {dest rows : Nat}
    (area : dest + g.x * rows ≤ g.cells) (y x count : Nat) (data : Nat → ConsoleCell) :
    (c.putCells dest rows y x count data).2.Confined g := by
  simp only [Console.putCells, h.config]
  split
  · exact h
  rename_i inside
  refine h.store fits (fun _ => ?_) data
  have row : g.x * y + g.x ≤ g.x * rows := by
    rw [← Nat.mul_succ]
    exact Nat.mul_le_mul_left g.x (by omega)
  have clipped : min count (g.x - x) ≤ g.x - x := Nat.min_le_right _ _
  omega

theorem Console.Confined.putc (h : c.Confined g) (fits : g.Fits) (rows : g.y ≤ g.maxY)
    (x y : Nat) (charattr : ConsoleCell) : (c.putc x y charattr).2.Confined g := by
  have last := g.screen_add rows
  simp only [Console.putc, h.config]
  split
  · exact h
  rename_i inside
  dsimp only
  refine h.store fits (fun _ => ?_) _
  have row : g.x * y + g.x ≤ g.x * g.y := by
    rw [← Nat.mul_succ]
    exact Nat.mul_le_mul_left g.x (by omega)
  omega

/-- Every row that is cleared lies above row `bottom`. -/
theorem Console.Confined.clearRows (fits : g.Fits) (rows : g.y ≤ g.maxY) {left right bottom : Nat}
    (inScreen : left ≤ right → g.x * bottom + right < g.x * g.y) (blank : ConsoleCell) :
    ∀ {n t : Nat} {c : Console}, c.Confined g → t + n ≤ bottom + 1 →
      (c.clearRows left right blank n t).Confined g
  | 0, _, _, h, _ => h
  | n + 1, t, c, h, below => by
    have last := g.screen_add rows
    rw [Console.clearRows]
    refine Confined.clearRows fits rows inScreen blank (h.store fits (fun some => ?_) _) (by omega)
    have row : g.x * t ≤ g.x * bottom := Nat.mul_le_mul_left g.x (by omega)
    have corner := inScreen (by omega)
    rw [h.config]
    omega

/-- A loop that moves parts of rows, each from a place of the buffer to another. -/
theorem Console.Confined.moveRows (fits : g.Fits) {column left right : Nat} {next : Int}
    (ordered : left ≤ right + 1) (narrow : right + 1 - left ≤ g.cells) :
    ∀ {n : Nat} {y t : Int} {c : Console}, c.Confined g →
      (left ≤ right → ∀ k < n,
        (0 ≤ g.x * (y + next * k) ∧
          g.screen + g.x * (y + next * k) + column + (right + 1 - left) ≤ g.cells) ∧
        0 ≤ g.x * (t + next * k) ∧ g.screen + g.x * (t + next * k) + right + 1 ≤ g.cells) →
      (c.moveRows column left right next n y t).Confined g
  | 0, _, _, _, h, _ => h
  | n + 1, y, t, c, h, bounds => by
    have first := fun some => bounds some 0 n.succ_pos
    simp only [Int.natCast_zero, Int.mul_zero, Int.add_zero] at first
    rw [Console.moveRows]
    refine Confined.moveRows fits ordered narrow (h.memmove fits ?_ ?_ fun some => ?_)
      fun some k hk => ?_
    · omega
    · omega
    · obtain ⟨dest, src⟩ := first (by omega)
      rw [h.config]
      omega
    · have turn := bounds some (k + 1) (Nat.succ_lt_succ hk)
      have moved (z : Int) : z + next + next * k = z + next * (k + 1 : Nat) := by
        push_cast
        rw [Int.mul_add, Int.mul_one]
        omega
      rwa [moved, moved]

/-- Row `z` of a screen whose row `last` has column `right`. -/
theorem ConsoleConfig.row_bounds (rows : g.y ≤ g.maxY) {last right : Nat}
    (corner : g.x * last + right < g.x * g.y) {z : Int} (low : 0 ≤ z) (high : z ≤ last) :
    0 ≤ g.x * z ∧ g.screen + g.x * z + right + 1 ≤ g.cells := by
  have end_screen := g.screen_add rows
  have above : (g.x : Int) * z ≤ g.x * last :=
    Int.mul_le_mul_of_nonneg_left high (Int.natCast_nonneg _)
  exact ⟨Int.mul_nonneg (Int.natCast_nonneg _) low, by omega⟩

theorem Console.Confined.bmove (h : c.Confined g) (fits : g.Fits) (rows : g.y ≤ g.maxY)
    {row column top left bottom right : Nat}
    (ok : (ConsoleMessage.bmove row column top left bottom right).InBounds g) :
    (c.bmove row column top left bottom right).Confined g := by
  have last := g.screen_add rows
  rcases Nat.lt_or_ge bottom top with none | some
  · have stop : bottom + 1 - top = 0 := by omega
    simp only [Console.bmove, stop]
    split <;> exact h
  have ordered : left ≤ right + 1 := by
    rcases ok some with empty | ⟨filled, -⟩ <;> omega
  have corners (filled : left ≤ right) : g.x * bottom + right < g.x * g.y ∧
      g.x * (row + (bottom - top)) + (column + (right - left)) < g.x * g.y := by
    rcases ok some with empty | ⟨-, source, dest⟩ <;> omega
  have narrow : right + 1 - left ≤ g.cells := by
    rcases Nat.lt_or_ge right left with empty | filled
    · omega
    · have := corners filled
      omega
  unfold Console.bmove
  split
  · refine h.moveRows fits ordered narrow fun filled k hk => ?_
    obtain ⟨source, dest⟩ := corners filled
    have to_row := g.row_bounds rows dest (z := row + 1 * k) (by omega) (by omega)
    have from_row := g.row_bounds rows source (z := top + 1 * k) (by omega) (by omega)
    omega
  · refine h.moveRows fits ordered narrow fun filled k hk => ?_
    obtain ⟨source, dest⟩ := corners filled
    have to_row := g.row_bounds rows dest (z := row + (bottom - top) + -1 * k) (by omega) (by omega)
    have from_row := g.row_bounds rows source (z := bottom + -1 * k) (by omega) (by omega)
    omega

/-- What one message leaves confined. -/
theorem Console.Confined.op (h : c.Confined g) (fits : g.Fits) (rows : g.y ≤ g.maxY)
    {m : ConsoleMessage} (ok : m.InBounds g) : (coConsoleOp m c).console.Confined g := by
  have last := g.screen_add rows
  cases m with
  | scrollUp top bottom lines charattr => exact h.scrollUp fits rows ok
  | scrollDown top bottom lines charattr => exact h.scrollDown fits rows ok
  | putcs y x count data =>
    obtain rfl := h.config
    exact h.putCells fits (Nat.le_of_eq last) y x count data
  | putc x y charattr => exact h.putc fits rows x y charattr
  | cursor pos => exact ⟨h.config, h.size, h.touched⟩
  | clear top left bottom right charattr =>
    rcases Nat.lt_or_ge bottom top with none | some
    · have stop : bottom + 1 - top = 0 := by omega
      simp only [coConsoleOp, stop]
      exact h
    · exact h.clearRows fits rows (ok some) charattr (by omega)
  | bmove row column top left bottom right => exact h.bmove fits rows ok
  | startup => exact h
  | initScrollbuffer y x count data =>
    obtain rfl := h.config
    exact h.putCells fits (Nat.le_of_eq (Nat.zero_add _)) y x count data
  | switch =>
    have scrollback : c.config.x * (c.config.maxY - c.config.y) ≤ g.cells := by
      rw [h.config]
      exact Nat.mul_le_mul_left g.x (Nat.sub_le _ _)
    show (c.store 0 (c.config.x * (c.config.maxY - c.config.y)) fun _ => 0).Confined g
    exact h.store fits (fun _ => ⟨Int.le_refl 0, by omega⟩) _
  | config rows cols attr => exact h
  | ignored type => exact h

theorem coConsoleCreate_confined (g : ConsoleConfig) : (coConsoleCreate g).Confined g :=
  ⟨rfl, rfl, fun _ h => absurd h List.not_mem_nil⟩

theorem Console.Confined.inBuffer (h : c.Confined g) (fits : g.Fits) : c.InBuffer := by
  refine ⟨?_, h.config.symm ▸ h.touched⟩
  have whole : g.structSize = sizeofCoConsole + sizeofConsoleCell * g.cells := by
    rw [ConsoleConfig.structSize, Nat.mul_assoc, Nat.add_comm]
    exact Nat.mod_eq_of_lt fits
  refine Nat.le_of_eq ?_
  rw [h.size, h.config, whole]

end Operations

theorem checkCocon_rows {x y maxY : Int} {conf g : ConsoleConfig}
    (accepted : checkCocon x y maxY conf = some g) : g.y ≤ g.maxY := by
  unfold checkCocon at accepted
  dsimp only at accepted
  generalize (if maxY = 0 then _ else maxY) = m at accepted
  have enough : y ≤ if m < y then y else m := by split <;> omega
  generalize (if m < y then y else m) = rows at accepted enough
  split at accepted
  · contradiction
  · obtain rfl := Option.some.inj accepted
    exact Int.toNat_le_toNat enough

/-- An accepted screen is part of its buffer. -/
theorem parseArgsConfigCocon_rows {strtol : List Char → Int × List Char} {arg : Option (List Char)}
    {conf g : ConsoleConfig} (accepted : parseArgsConfigCocon strtol arg conf = some g) :
    g.y ≤ g.maxY := by
  cases arg with
  | none =>
    obtain rfl := Option.some.inj accepted
    exact (by decide : coConsoleHeight ≤ coConsoleMaxRows)
  | some buf => exact checkCocon_rows accepted

/-- The console after a sequence of messages. -/
def consoleRun (messages : List ConsoleMessage) (c : Console) : Console :=
  run (fun m c => (coConsoleOp m c).console) messages c

/-- Messages that are in bounds keep an accepted console inside its buffer. -/
theorem consoleOps_inBuffer {strtol : List Char → Int × List Char} {arg : Option (List Char)}
    {conf g : ConsoleConfig} (accepted : parseArgsConfigCocon strtol arg conf = some g)
    (fits : g.Fits) {messages : List ConsoleMessage} (inBounds : ∀ m ∈ messages, m.InBounds g) :
    (consoleRun messages (coConsoleCreate g)).InBuffer := by
  have rows := parseArgsConfigCocon_rows accepted
  have confined : (consoleRun messages (coConsoleCreate g)).Confined g :=
    run_invariant (fun c m h ok => h.op fits rows ok) (coConsoleCreate_confined g)
      (runOk_of_forall inBounds)
  exact confined.inBuffer fits

/-- The console without `cocon=`. -/
def defaultConsole : ConsoleConfig := ⟨80, 25, 500, 7⟩

/-- A region scroll, the last cell of the screen, and the cursor. -/
theorem consoleOps_inBuffer_defaultConsole :
    (consoleRun [.scrollUp 2 23 3 0x720, .putcs 24 79 9 fun _ => 0x741, .cursor ⟨0, 24, 2⟩]
      (coConsoleCreate defaultConsole)).InBuffer :=
  have accepted : parseArgsConfigCocon (fun s => (0, s)) none defaultConsole =
      some defaultConsole := rfl
  consoleOps_inBuffer accepted (by decide) (by decide)

/-- Clearing one row more than the screen has writes behind the buffer. -/
theorem clearBelowScreen_outside :
    parseArgsConfigCocon (fun s => (0, s)) none defaultConsole = some defaultConsole ∧
      ¬(consoleRun [.clear 0 0 25 0 0x720] (coConsoleCreate defaultConsole)).InBuffer := by
  refine ⟨rfl, fun h => ?_⟩
  have inside := h.2 ⟨cellAt 40000, 1⟩ (List.mem_cons_self ..) 0 (by decide)
  revert inside
  decide +kernel

end CoLinux
