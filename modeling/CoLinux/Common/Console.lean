import CoLinux.Common.Types

/-!
# The console (`common/console.c`)

The console object of the kernel shadow and of the console programs: one allocation with the
cells of the scroll buffer behind the header, the viewable screen being its last rows. Cell
numbers count from `console->buffer`. The C code computes them with `unsigned long` and pointer
arithmetic, which wraps at `2 ^ 32` bytes, so at `cellSpace` cells; no message is checked to
stay inside the buffer by the model itself. `touched` records the cells that were read or
written.
-/

namespace CoLinux

/-- `co_console_cell_t`, as the `co_console_character` of its two bytes. -/
abbrev ConsoleCell := Nat

/-- Cells in the address space. -/
@[irreducible] def cellSpace : Nat := 2147483648

abbrev sizeofConsoleCell : Nat := 2
abbrev sizeofCoConsole : Nat := 40

abbrev coConsoleMinRows : Nat := 2
abbrev coConsoleMaxRows : Nat := 500
abbrev coConsoleMinCols : Nat := 16
abbrev coConsoleWidth : Nat := 80
abbrev coConsoleHeight : Nat := 25

/-- `co_console_config_t`, the cursor size apart. -/
structure ConsoleConfig where
  x : Nat
  y : Nat
  maxY : Nat
  attr : Nat
  deriving DecidableEq

namespace ConsoleConfig

/-- The cells of the buffer. -/
def cells (g : ConsoleConfig) : Nat := g.x * g.maxY

/-- `console->screen - console->buffer`. -/
def screen (g : ConsoleConfig) : Nat := (g.maxY - g.y) * g.x

/-- The allocation of `co_console_create`. -/
def structSize (g : ConsoleConfig) : Nat :=
  (sizeofConsoleCell * g.x * g.maxY + sizeofCoConsole) % wordSize

end ConsoleConfig

/-- The numbers of `cocon=` as `parse_args_config_cocon` takes them over, when they are within
the limits. -/
def checkCocon (x y maxY : Int) (conf : ConsoleConfig) : Option ConsoleConfig :=
  let maxY := if maxY = 0 then (coConsoleMaxRows : Int) else maxY
  let maxY := if maxY < y then y else maxY
  if x < coConsoleMinCols ∨ y < coConsoleMinRows ∨ coConsoleMaxRows < maxY then none
  else some { conf with x := x.toNat, y := y.toNat, maxY := maxY.toNat }

/-- `parse_args_config_cocon`: the value behind `cocon=`, when there is one, read by `strtol`,
which returns the number and the text behind it. -/
def parseArgsConfigCocon (strtol : List Char → Int × List Char) (arg : Option (List Char))
    (conf : ConsoleConfig) : Option ConsoleConfig :=
  match arg with
  | none => some { conf with x := coConsoleWidth, y := coConsoleHeight, maxY := coConsoleMaxRows }
  | some buf =>
    let x := strtol buf
    let y := strtol (x.2.drop 1)
    let maxY := strtol (y.2.drop 1)
    checkCocon (x.1.bmod wordSize) (y.1.bmod wordSize) (maxY.1.bmod wordSize) conf

/-- `co_cursor_pos_t`. -/
structure CursorPos where
  x : Nat
  y : Nat
  height : Nat
  deriving DecidableEq

/-- `co_console_message_t`. The fields are 16 bits wide, so sums of them do not wrap. -/
inductive ConsoleMessage where
  | scrollUp (top bottom lines : Nat) (charattr : ConsoleCell)
  | scrollDown (top bottom lines : Nat) (charattr : ConsoleCell)
  | putcs (y x count : Nat) (data : Nat → ConsoleCell)
  | putc (x y : Nat) (charattr : ConsoleCell)
  /-- `CURSOR_DRAW`, `CURSOR_ERASE` and `CURSOR_MOVE`. -/
  | cursor (pos : CursorPos)
  | clear (top left bottom right : Nat) (charattr : ConsoleCell)
  | bmove (row column top left bottom right : Nat)
  | startup
  | initScrollbuffer (y x count : Nat) (data : Nat → ConsoleCell)
  | switch
  | config (rows cols attr : Nat)
  /-- The types that `co_console_op` ignores, and those it does not know. -/
  | ignored (type : Nat)

/-- `count` cells from cell `start` on. -/
structure CellRange where
  start : Nat
  count : Nat

/-- Every cell of the range is one of the first `n`. -/
def CellRange.Inside (r : CellRange) (n : Nat) : Prop :=
  ∀ i < r.count, (r.start + i) % cellSpace < n

/-- A cell pointer as a cell number. -/
def cellAt (p : Int) : Nat := (p % cellSpace).toNat

/-- How far behind cell `start` cell `j` lies. -/
def cellDistance (start j : Nat) : Nat := cellAt ((j : Int) - start)

/-- `co_console_t`. -/
structure Console where
  size : Nat
  config : ConsoleConfig
  cells : Nat → ConsoleCell
  cursor : CursorPos
  touched : List CellRange

/-- `co_console_create` with an allocation that succeeds. -/
def coConsoleCreate (config : ConsoleConfig) : Console where
  size := config.structSize
  config := config
  cells _ := 0
  cursor := ⟨0, 0, 0⟩
  touched := []

namespace Console

/-- `memmove` of `count` cells; the size in bytes wraps like the pointers do. -/
def memmove (dest src count : Int) (c : Console) : Console :=
  { c with
    cells := fun j =>
      if cellDistance (cellAt dest) j < cellAt count then
        c.cells ((cellAt src + cellDistance (cellAt dest) j) % cellSpace)
      else c.cells j
    touched := ⟨cellAt src, cellAt count⟩ :: ⟨cellAt dest, cellAt count⟩ :: c.touched }

/-- `count` assignments through a pointer that moves on. -/
def store (dest : Int) (count : Nat) (data : Nat → ConsoleCell) (c : Console) : Console :=
  { c with
    cells := fun j =>
      if cellDistance (cellAt dest) j < count then data (cellDistance (cellAt dest) j)
      else c.cells j
    touched := ⟨cellAt dest, count⟩ :: c.touched }

/-- `CO_OPERATION_CONSOLE_SCROLL_UP`. -/
def scrollUp (t bottom lines : Nat) (blank : ConsoleCell) (c : Console) : Step Console :=
  let g := c.config
  let b := bottom + 1
  let sCount := g.x * lines % wordSize
  if t ≠ 0 ∨ b ≠ g.y then
    if g.maxY < b then (.error, c)
    else if g.maxY ≤ t + lines then (.error, c)
    else
      let offs : Int := g.x * b - sCount
      (.ok, (c.memmove (g.screen + g.x * t) (g.screen + g.x * t + sCount)
        (offs - g.x * t)).store (g.screen + offs) sCount fun _ => blank)
  else
    let offs : Int := g.x * g.maxY - sCount
    (.ok, (c.memmove 0 sCount offs).store offs sCount fun _ => blank)

/-- `CO_OPERATION_CONSOLE_SCROLL_DOWN`. -/
def scrollDown (t bottom lines : Nat) (blank : ConsoleCell) (c : Console) : Step Console :=
  let g := c.config
  let b := bottom + 1
  let sCount := g.x * lines % wordSize
  if t ≠ 0 ∨ b ≠ g.y then
    if g.maxY < b then (.error, c)
    else if g.maxY ≤ t + lines then (.error, c)
    else
      let dest : Int := g.screen + g.x * t
      (.ok, (c.memmove (dest + sCount) dest (g.x * b - g.x * t - sCount)).store dest sCount
        fun _ => blank)
  else
    let dest : Int := g.screen
    (.ok, (c.memmove (dest + sCount) dest (g.x * g.y - sCount)).store dest sCount fun _ => blank)

/-- `CO_OPERATION_CONSOLE_PUTCS` (`dest` is the screen, with `rows` rows) and
`CO_OPERATION_CONSOLE_INIT_SCROLLBUFFER` (`dest` is the buffer). -/
def putCells (dest rows y x count : Nat) (data : Nat → ConsoleCell) (c : Console) :
    Step Console :=
  if rows ≤ y ∨ c.config.x ≤ x then (.error, c)
  else (.ok, c.store (dest + c.config.x * y + x) (min count (c.config.x - x)) data)

/-- `CO_OPERATION_CONSOLE_PUTC`. -/
def putc (x y : Nat) (charattr : ConsoleCell) (c : Console) : Step Console :=
  if c.config.y ≤ y ∨ c.config.x ≤ x then (.error, c)
  else (.ok, c.store (c.config.screen + (c.config.x * y + x)) 1 fun _ => charattr)

/-- The `rows` turns of the loop of `CO_OPERATION_CONSOLE_CLEAR` from row `t` on. -/
def clearRows (left right : Nat) (blank : ConsoleCell) : Nat → Nat → Console → Console
  | 0, _, c => c
  | rows + 1, t, c =>
    clearRows left right blank rows (t + 1)
      (c.store (c.config.screen + c.config.x * t + left) (right + 1 - left) fun _ => blank)

/-- The `rows` turns of a loop of `CO_OPERATION_CONSOLE_BMOVE`, from row `t` to row `y`, both
moving by `by` after every turn. -/
def moveRows (column left right : Nat) (next : Int) : Nat → Int → Int → Console → Console
  | 0, _, _, c => c
  | rows + 1, y, t, c =>
    moveRows column left right next rows (y + next) (t + next)
      (c.memmove (c.config.screen + c.config.x * y + column)
        (c.config.screen + c.config.x * t + left) (right - left + 1))

/-- `CO_OPERATION_CONSOLE_BMOVE`. -/
def bmove (y x t l b r : Nat) (c : Console) : Console :=
  if y < t then moveRows x l r 1 (b + 1 - t) y t c
  else moveRows x l r (-1) (b + 1 - t) (y + (b - t : Int)) b c

end Console

/-- `co_console_op`; `message` is what the call leaves in the message. -/
structure ConsoleOp where
  rc : CoRc
  console : Console
  message : ConsoleMessage

def coConsoleOp (message : ConsoleMessage) (c : Console) : ConsoleOp :=
  let keep (r : Step Console) : ConsoleOp := ⟨r.1, r.2, message⟩
  match message with
  | .scrollUp top bottom lines charattr => keep (c.scrollUp top bottom lines charattr)
  | .scrollDown top bottom lines charattr => keep (c.scrollDown top bottom lines charattr)
  | .putcs y x count data => keep (c.putCells c.config.screen c.config.y y x count data)
  | .putc x y charattr => keep (c.putc x y charattr)
  | .cursor pos => keep (.ok, { c with cursor := pos })
  | .clear top left bottom right charattr =>
    keep (.ok, c.clearRows left right charattr (bottom + 1 - top) top)
  | .bmove row column top left bottom right =>
    keep (.ok, c.bmove row column top left bottom right)
  | .startup => ⟨.ok, c, .config c.config.y c.config.x c.config.attr⟩
  | .initScrollbuffer y x count data => keep (c.putCells 0 c.config.maxY y x count data)
  | .switch => keep (.ok, c.store 0 (c.config.x * (c.config.maxY - c.config.y)) fun _ => 0)
  | .config .. | .ignored _ => keep (.ok, c)

end CoLinux
