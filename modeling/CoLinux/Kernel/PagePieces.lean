import CoLinux.Kernel.TransferSafety

/-!
# The pieces of a range (`kernel/pages.c`, `kernel/transfer.c`)

`co_split_by_pages_and_callback` and `co_monitor_host_linuxvm_transfer` both round the end of a
page up in 32 bits, where it is 0 for the last page of the address space. The pieces they visit
are those of the range cut at its page boundaries all the same.
-/

namespace CoLinux

variable {σ : Type}

/-! ## Cutting a range -/

/-- The offsets and the sizes of the pieces of `size` bytes from `offset` on. -/
def pagePieces (offset size : Nat) : List (Nat × Nat) :=
  if size = 0 then []
  else
    (offset, min (coArchPageSize - offset % coArchPageSize) size) ::
      pagePieces (offset + min (coArchPageSize - offset % coArchPageSize) size)
        (size - min (coArchPageSize - offset % coArchPageSize) size)
termination_by size
decreasing_by
  simp only [coArchPageSize]
  omega

/-- Each piece starts where the one before it ends, the first at `start` and the last up to
`stop`. -/
def Consecutive : List (Nat × Nat) → Nat → Nat → Prop
  | [], start, stop => start = stop
  | piece :: pieces, start, stop =>
    piece.1 = start ∧ Consecutive pieces (start + piece.2) stop

def InPiece (a : Nat) (piece : Nat × Nat) : Prop := piece.1 ≤ a ∧ a < piece.1 + piece.2

/-- Nonempty, consecutive pieces of the range, none of them across a page boundary. -/
structure CutAtPages (offset size : Nat) (pieces : List (Nat × Nat)) : Prop where
  consecutive : Consecutive pieces offset (offset + size)
  nonempty : ∀ piece ∈ pieces, 0 < piece.2
  inPage : ∀ piece ∈ pieces, piece.1 % coArchPageSize + piece.2 ≤ coArchPageSize
  covers : ∀ a, (∃ piece ∈ pieces, InPiece a piece) ↔ offset ≤ a ∧ a < offset + size

theorem pagePieces_zero (offset : Nat) : pagePieces offset 0 = [] := by
  rw [pagePieces, if_pos rfl]

theorem pagePieces_turn {offset size : Nat} (ho : offset < wordSize) (hs : size ≠ 0) :
    pagePieces offset size = (offset, min (pagePart offset) size) ::
      pagePieces (offset + min (pagePart offset) size) (size - min (pagePart offset) size) := by
  rw [pagePieces, if_neg hs, pagePart_eq ho]

/-- One more piece in front. -/
theorem CutAtPages.cons {offset n size : Nat} {pieces : List (Nat × Nat)}
    (rest : CutAtPages (offset + n) size pieces) (some : 0 < n)
    (page : offset % coArchPageSize + n ≤ coArchPageSize) :
    CutAtPages offset (n + size) ((offset, n) :: pieces) := by
  refine ⟨⟨rfl, ?_⟩, ?_, ?_, fun a => ?_⟩
  · rw [← Nat.add_assoc]
    exact rest.consecutive
  · exact List.forall_mem_cons.mpr ⟨some, rest.nonempty⟩
  · exact List.forall_mem_cons.mpr ⟨page, rest.inPage⟩
  · have first : InPiece a (offset, n) ↔ offset ≤ a ∧ a < offset + n := Iff.rfl
    rw [List.exists_mem_cons_iff, rest.covers, first]
    omega

theorem pagePieces_cut (offset size : Nat) : CutAtPages offset size (pagePieces offset size) := by
  induction offset, size using pagePieces.induct with
  | case1 offset =>
    rw [pagePieces_zero]
    refine ⟨rfl, by simp, by simp, fun a => ?_⟩
    constructor
    · rintro ⟨piece, mem, -⟩
      exact absurd mem List.not_mem_nil
    · omega
  | case2 offset size some ih =>
    rw [pagePieces, if_neg some]
    have pos : 0 < min (coArchPageSize - offset % coArchPageSize) size := by
      simp only [coArchPageSize]
      omega
    have page : offset % coArchPageSize + min (coArchPageSize - offset % coArchPageSize) size ≤
        coArchPageSize := by
      simp only [coArchPageSize]
      omega
    have cut := ih.cons pos page
    rwa [Nat.add_sub_cancel' (Nat.min_le_right _ _)] at cut

/-! ## Visiting the pieces -/

/-- Calls `func` on one piece after the other, up to the first error. -/
def callPieces (func : Nat → Nat → σ → Step σ) : List (Nat × Nat) → σ → Step σ
  | [], s => (.ok, s)
  | piece :: pieces, s =>
    let r := func piece.1 piece.2 s
    if r.1 = .ok then callPieces func pieces r.2 else r

/-- The end of the address space wraps to 0 only after the last piece. -/
theorem coSplit_pieces (func : Nat → Nat → σ → Step σ) {offset size : Nat}
    (ho : offset < wordSize) (range : offset + size ≤ wordSize) (s : σ) :
    coSplitByPagesAndCallback func offset size s = callPieces func (pagePieces offset size) s := by
  induction size using Nat.strongRecOn generalizing offset s with
  | ind size ih =>
    by_cases hs : size = 0
    · rw [hs, coSplit_zero, pagePieces_zero]
      rfl
    obtain ⟨pos, le, -⟩ := partSize_bounds ho hs
    rw [coSplit_turn s ho hs, pagePieces_turn ho hs, callPieces]
    dsimp only
    generalize min (pagePart offset) size = part at pos le
    by_cases ok : (func offset part s).1 = .ok
    swap
    · rw [Step.andThen_of_ne ok, if_neg ok]
    rw [Step.andThen_of_ok ok, if_pos ok]
    by_cases last : part = size
    · rw [last, Nat.sub_self, coSplit_zero, pagePieces_zero]
      rfl
    · have next : offset + part < wordSize := by omega
      rw [Nat.mod_eq_of_lt next]
      exact ih (size - part) (by omega) next (by omega) _

/-- Both loops visit exactly the pieces of the range, in order, and stop at the first error: any
number of turns that is at least the number of bytes gives the same result. -/
theorem pagePieces_visited {offset size : Nat} (ho : offset < wordSize)
    (range : offset + size ≤ wordSize) :
    CutAtPages offset size (pagePieces offset size) ∧
    (∀ (σ : Type) (func : Nat → Nat → σ → Step σ) (s : σ) (fuel : Nat), size ≤ fuel →
      splitLoop func fuel offset size s = callPieces func (pagePieces offset size) s) ∧
    ∀ (δ : Type) (w : World) (func : TransferFunc δ) (s : Transfer δ) (fuel : Nat), size ≤ fuel →
      transferLoop w func fuel offset size s =
        callPieces (transferTurn w func) (pagePieces offset size) s := by
  refine ⟨pagePieces_cut offset size, fun σ func s fuel enough => ?_,
    fun δ w func s fuel enough => ?_⟩
  · rw [splitLoop_fuel enough s ho]
    exact coSplit_pieces func ho range s
  · rw [transferLoop_eq w func fuel ho, splitLoop_fuel enough s ho]
    exact coSplit_pieces _ ho range s

/-- The last 6000 bytes of the address space are two pieces. -/
example : pagePieces 0xffffe890 6000 = [(0xffffe890, 1904), (0xfffff000, 4096)] := by
  simp [pagePieces, coArchPageSize]

theorem pagePieces_visited_lastPages :
    (0xffffe890 < wordSize ∧ 0xffffe890 + 6000 ≤ wordSize) ∧
      CutAtPages 0xffffe890 6000 (pagePieces 0xffffe890 6000) :=
  have range : 0xffffe890 < wordSize ∧ 0xffffe890 + 6000 ≤ wordSize := by decide
  ⟨range, (pagePieces_visited range.1 range.2).1⟩

end CoLinux
