import CoLinux.Winnt.HostFile

/-!
# Synchronous block requests (`os/winnt/kernel/block.c`)

`co_os_file_block_read_write` cuts a request into pieces of a page and moves each with one call of
the host. Whether a piece is taken for moved is decided by its status alone.
-/

namespace CoLinux

open Lib

/-- `transfer_file_block`. -/
def transferFileBlock (host : Nat → IoAnswer) (dir : TransferDir) : TransferFunc FileIo :=
  fun linuxvm size s =>
    let io := zwTransferFile host dir linuxvm size s
    (if io.1.status ≠ .success then coStatusConvert io.1.status else .ok, io.2.1,
      { io.2.2 with offset := (io.2.2.offset + size) % quadSize })

/-- `co_os_file_block_read_write`. -/
def coOsFileBlockReadWrite (host : Nat → IoAnswer) (backing : ByteMem)
    (offset address size : Nat) (read : Bool) (w : World) : Step (Transfer FileIo) :=
  coMonitorHostLinuxvmTransfer
    (transferFileBlock host (if read then .fromHost else .fromLinux)) address size
    ⟨backing, offset, []⟩ w

/-- What a request has to do: when it reports OK, each byte is one of the guest and one of the
file, and the two are the same; it does not report OK when a piece is short or fails. -/
structure BlockMoved (w : World) (backing : ByteMem) (offset address size : Nat) (read : Bool)
    (r : Step (Transfer FileIo)) : Prop where
  located : r.1 = .ok → ∀ i < size, offset + i < maxFileOffset ∧ HasFrame w (address + i)
  guestBytes : r.1 = .ok → read = true → ∀ i < size,
    r.2.mem (w.guestAddress ((address + i) % wordSize)) = backing (offset + i)
  fileBytes : r.1 = .ok → read = false → ∀ i < size,
    r.2.hostData.backing (offset + i) = w.mem (w.guestAddress ((address + i) % wordSize))
  pieces : ∀ call ∈ r.2.hostData.calls, ¬ call.answer.Whole call.size → r.1 ≠ .ok

/-- The bound checks let the request through, every page is in an allocated group, and
`co_status_convert` takes no status of a piece for a failure. -/
structure NothingRefuses (host : Nat → IoAnswer) (address size : Nat) (w : World) : Prop where
  bounds : TransferInBounds w.monitor.endPhysical address size
  groups : ∀ i < size, HasGroup w (address + i)
  statuses : ∀ piece ∈ filePieces w host 0 address size,
    coStatusConvert piece.answer.status = .ok

section Walk

variable {host : Nat → IoAnswer} {dir : TransferDir} {w : World} {address size n : Nat}
  {s : Transfer FileIo}

/-- The running offset moves on whatever the answer is. -/
theorem transferFileBlock_eq (host : Nat → IoAnswer) (dir : TransferDir) :
    transferFileBlock host dir = transferFile (fun _ => true) host dir := by
  funext linuxvm size m
  simp only [transferFileBlock, transferFile, if_true, Prod.mk.injEq, and_true]
  by_cases success : (zwTransferFile host dir linuxvm size m).1.status = .success
  · rw [if_neg (not_not.mpr success), success]
    rfl
  · rw [if_pos success]

/-! ## What a walk with whole pieces moves -/

/-- Two bytes of a range are kept in two places. -/
theorem DistinctFrames.byteSlot_inj (distinct : DistinctFrames w) {i j : Nat}
    (frame : HasFrame w (address + i)) (hi : i < wordSize) (hj : j < wordSize)
    (same : w.byteSlot (address + i) = w.byteSlot (address + j)) : i = j := by
  have := distinct.guestAddress_inj frame same
  simp only [wordSize] at *
  omega

/-- What a whole piece moves. -/
def PieceMoved (dir : TransferDir) (slot n : Nat) (s s' : Transfer FileIo) : Prop :=
  match dir with
  | .fromHost =>
    s'.mem = s.mem.copyBytes slot n (fun i => s.hostData.backing (s.hostData.offset + i)) ∧
      s'.hostData.backing = s.hostData.backing
  | .fromLinux =>
    s'.mem = s.mem ∧ s'.hostData.backing =
      s.hostData.backing.copyBytes s.hostData.offset n fun i => s.mem (slot + i)

theorem transferFileBlock_moved (pfn : Nat) {s : Transfer FileIo}
    (inFile : s.hostData.offset < maxFileOffset)
    (whole : (host s.hostData.calls.length).Whole n) :
    PieceMoved dir (pfn * coArchPageSize + address % coArchPageSize) n s
      (transferPage (transferFile (fun _ => true) host dir) pfn address n s).2 := by
  cases dir <;>
    simp only [PieceMoved, transferPage, transferFile, zwTransferFile,
      Nat.min_eq_right whole.2, if_pos inFile, and_self]

/-- One turn of a walk whose pieces are all whole. -/
theorem blockWalk_turn (hv : address < wordSize) (hs : size ≠ 0) (group : HasGroup w address)
    (inFile : s.hostData.offset + size ≤ maxFileOffset)
    (whole : ∀ piece ∈ filePieces w host s.hostData.calls.length address size,
      piece.answer.Whole piece.size) :
    ∃ n s', (0 < n ∧ n ≤ size ∧ address % 4096 + n ≤ 4096) ∧
      coSplitByPagesAndCallback (transferTurn w (transferFile (fun _ => true) host dir)) address
          size s =
        coSplitByPagesAndCallback (transferTurn w (transferFile (fun _ => true) host dir))
          ((address + n) % wordSize) (size - n) s' ∧
      s'.hostData.offset = s.hostData.offset + n ∧
      (∀ piece ∈ filePieces w host s'.hostData.calls.length ((address + n) % wordSize) (size - n),
        piece.answer.Whole piece.size) ∧
      PieceMoved dir (w.guestAddress address) n s s' := by
  obtain ⟨pos, le, inPage⟩ := partSize_bounds hv hs
  rw [filePieces_cons w host _ hv hs, List.forall_mem_cons] at whole
  rw [coSplit_turn s hv hs]
  generalize min (pagePart address) size = n at pos le inPage whole
  rw [transferTurn_group hv group]
  have done : (transferPage (transferFile (fun _ => true) host dir)
      (w.ppPfn (address / coArchPageSize)) address n s).1 = .ok := by
    rw [transferPage_rc, transferFile_rc]
    exact whole.1.converted
  refine ⟨n, _, ⟨pos, le, inPage⟩, Step.andThen_of_ok done _, ?_, ?_, ?_⟩
  · have small : s.hostData.offset + n < quadSize :=
      Nat.lt_of_le_of_lt (show s.hostData.offset + n ≤ maxFileOffset by omega) (by decide)
    rw [transferPage_hostData, transferFile_offset, offsetAfter_piece _ rfl, Nat.mod_eq_of_lt small]
  · rw [transferPage_hostData, transferFile_count]
    exact whole.2
  · exact transferFileBlock_moved _ (by omega) whole.1

/-- A read whose pieces are all whole leaves the bytes of the file in the range, and nothing
else of memory is changed. -/
theorem blockWalk_read (distinct : DistinctFrames w) (hv : address < wordSize)
    (hsize : size < wordSize) (frames : ∀ i < size, HasFrame w (address + i))
    (inFile : size = 0 ∨ s.hostData.offset + size ≤ maxFileOffset)
    (whole : ∀ piece ∈ filePieces w host s.hostData.calls.length address size,
      piece.answer.Whole piece.size) {r : Step (Transfer FileIo)}
    (hr : coSplitByPagesAndCallback (transferTurn w (transferFile (fun _ => true) host .fromHost))
      address size s = r) :
    (∀ i < size, r.2.mem (w.byteSlot (address + i)) =
        s.hostData.backing (s.hostData.offset + i)) ∧
      ∀ x, (∀ i < size, x ≠ w.byteSlot (address + i)) → r.2.mem x = s.mem x := by
  induction size using Nat.strongRecOn generalizing address s with
  | ind size ih =>
    by_cases hs : size = 0
    · subst hs hr
      exact ⟨fun i hi => absurd hi (Nat.not_lt_zero i), fun _ _ => rfl⟩
    obtain ⟨n, s', ⟨pos, le, inPage⟩, turn, offset, wholeRest, mem, backing⟩ :=
      @blockWalk_turn host .fromHost w address size s hv hs (frames 0 (by omega)).hasGroup
        (by omega) whole
    rw [turn] at hr
    obtain ⟨moved, kept⟩ := ih (size - n) (by omega) (Nat.mod_lt _ (by decide)) (by omega)
      (fun i hi => hasFrame_next.mpr (frames (n + i) (by omega))) (by omega) wholeRest hr
    rw [offset, backing] at moved
    rw [mem] at kept
    constructor
    · intro i hi
      by_cases first : i < n
      · rw [kept (w.byteSlot (address + i)), byteSlot_piece w hv inPage first,
          ByteMem.copyBytes_inside _ _ (by omega) (by omega), Nat.add_sub_cancel_left]
        intro j hj same
        rw [byteSlot_next] at same
        have := distinct.byteSlot_inj (frames i hi) (by omega) (by omega) same
        omega
      · have := moved (i - n) (by omega)
        rwa [byteSlot_next, Nat.add_sub_cancel' (by omega), Nat.add_assoc,
          Nat.add_sub_cancel' (by omega)] at this
    · intro x hx
      rw [kept x fun i hi => by rw [byteSlot_next]; exact hx (n + i) (by omega)]
      apply ByteMem.copyBytes_outside
      by_contra inside
      have := hx (x - w.guestAddress address) (by omega)
      rw [byteSlot_piece w hv inPage (by omega)] at this
      omega

/-- A write whose pieces are all whole leaves the bytes of the range in the file, and nothing in
front of them is changed. -/
theorem blockWalk_write (hv : address < wordSize)
    (frames : ∀ i < size, HasFrame w (address + i))
    (inFile : size = 0 ∨ s.hostData.offset + size ≤ maxFileOffset)
    (whole : ∀ piece ∈ filePieces w host s.hostData.calls.length address size,
      piece.answer.Whole piece.size) {r : Step (Transfer FileIo)}
    (hr : coSplitByPagesAndCallback (transferTurn w (transferFile (fun _ => true) host .fromLinux))
      address size s = r) :
    (∀ i < size, r.2.hostData.backing (s.hostData.offset + i) =
        s.mem (w.byteSlot (address + i))) ∧
      ∀ x < s.hostData.offset, r.2.hostData.backing x = s.hostData.backing x := by
  induction size using Nat.strongRecOn generalizing address s with
  | ind size ih =>
    by_cases hs : size = 0
    · subst hs hr
      exact ⟨fun i hi => absurd hi (Nat.not_lt_zero i), fun _ _ => rfl⟩
    obtain ⟨n, s', ⟨pos, le, inPage⟩, turn, offset, wholeRest, mem, backing⟩ :=
      @blockWalk_turn host .fromLinux w address size s hv hs (frames 0 (by omega)).hasGroup
        (by omega) whole
    rw [turn] at hr
    obtain ⟨moved, kept⟩ := ih (size - n) (by omega) (Nat.mod_lt _ (by decide))
      (fun i hi => hasFrame_next.mpr (frames (n + i) (by omega))) (by omega) wholeRest hr
    rw [offset, mem] at moved
    rw [offset, backing] at kept
    constructor
    · intro i hi
      by_cases first : i < n
      · rw [kept _ (by omega), byteSlot_piece w hv inPage first,
          ByteMem.copyBytes_inside _ _ (by omega) (by omega), Nat.add_sub_cancel_left]
      · have := moved (i - n) (by omega)
        rwa [byteSlot_next, Nat.add_sub_cancel' (by omega), Nat.add_assoc,
          Nat.add_sub_cancel' (by omega)] at this
    · intro x hx
      rw [kept x (by omega)]
      exact ByteMem.copyBytes_outside _ _ (.inl hx)

end Walk

/-! ## The request -/

theorem coOsFileBlockReadWrite_ok_iff (host : Nat → IoAnswer) (backing : ByteMem)
    (offset : Nat) {address size : Nat} (read : Bool) {w : World} (hv : address < wordSize) :
    (coOsFileBlockReadWrite host backing offset address size read w).1 = .ok ↔
      NothingRefuses host address size w := by
  by_cases bounds : TransferInBounds w.monitor.endPhysical address size
  · rw [coOsFileBlockReadWrite, coMonitorHostLinuxvmTransfer_inBounds hv bounds,
      transferFileBlock_eq, fileWalk_ok_iff hv]
    exact ⟨fun h => ⟨bounds, h.1, h.2⟩, fun h => ⟨h.groups, h.statuses⟩⟩
  · rw [coOsFileBlockReadWrite, coMonitorHostLinuxvmTransfer, if_neg bounds]
    exact ⟨fun ok => absurd ok (by simp), fun h => absurd h.bounds bounds⟩

theorem coOsFileBlockReadWrite_calls {host : Nat → IoAnswer} {backing : ByteMem}
    {offset address size : Nat} {read : Bool} {w : World} (hv : address < wordSize)
    (ok : (coOsFileBlockReadWrite host backing offset address size read w).1 = .ok) :
    (coOsFileBlockReadWrite host backing offset address size read w).2.hostData.calls =
      callsFrom (fun _ => true) offset (filePieces w host 0 address size) := by
  have bounds := ((coOsFileBlockReadWrite_ok_iff host backing offset read hv).mp ok).bounds
  rw [coOsFileBlockReadWrite, coMonitorHostLinuxvmTransfer_inBounds hv bounds,
    transferFileBlock_eq] at ok ⊢
  exact (fileWalk_calls hv ok rfl).1

/-- A request that nothing refuses and that does what it has to has whole pieces only. -/
theorem BlockMoved.whole {host : Nat → IoAnswer} {backing : ByteMem} {offset address size : Nat}
    {read : Bool} {w : World} (hv : address < wordSize)
    (moved : BlockMoved w backing offset address size read
      (coOsFileBlockReadWrite host backing offset address size read w))
    (ok : (coOsFileBlockReadWrite host backing offset address size read w).1 = .ok) :
    ∀ piece ∈ filePieces w host 0 address size, piece.answer.Whole piece.size := by
  intro piece mem
  obtain ⟨call, issued, size, answer⟩ := exists_call (fun _ => true) offset mem
  rw [← coOsFileBlockReadWrite_calls hv ok] at issued
  by_contra short
  exact moved.pieces call issued (by rwa [size, answer]) ok

/-- A request does what it has to if and only if something refuses it, or its bytes are bytes of
the guest and of the file and every piece is whole: a status that `co_status_convert` takes for
success comes with `STATUS_SUCCESS` and a full count. -/
theorem blockReadWrite_moved_iff (host : Nat → IoAnswer) (backing : ByteMem) (read : Bool)
    {offset address size : Nat} {w : World} (distinct : DistinctFrames w)
    (hv : address < wordSize) (hsize : size < wordSize) :
    BlockMoved w backing offset address size read
        (coOsFileBlockReadWrite host backing offset address size read w) ↔
      (NothingRefuses host address size w →
        (∀ i < size, offset + i < maxFileOffset ∧ HasFrame w (address + i)) ∧
          ∀ piece ∈ filePieces w host 0 address size, piece.answer.Whole piece.size) := by
  constructor
  · intro moved accepted
    have ok := (coOsFileBlockReadWrite_ok_iff host backing offset read hv).mpr accepted
    exact ⟨moved.located ok, moved.whole hv ok⟩
  · intro condition
    by_cases accepted : NothingRefuses host address size w
    · obtain ⟨located, whole⟩ := condition accepted
      have inFile : size = 0 ∨ offset + size ≤ maxFileOffset := by
        by_cases hs : size = 0
        · exact .inl hs
        · have := (located (size - 1) (by omega)).1
          omega
      have frames := fun i hi => (located i hi).2
      have ok := (coOsFileBlockReadWrite_ok_iff host backing offset read hv).mpr accepted
      refine ⟨fun _ => located, ?_, ?_, fun call issued short => ?_⟩
      · rintro - rfl
        rw [coOsFileBlockReadWrite, coMonitorHostLinuxvmTransfer_inBounds hv accepted.bounds,
          if_pos rfl, transferFileBlock_eq]
        exact (@blockWalk_read host w address size ⟨w.mem, ⟨backing, offset, []⟩, []⟩ distinct hv
          hsize frames inFile whole _ rfl).1
      · rintro - rfl
        rw [coOsFileBlockReadWrite, coMonitorHostLinuxvmTransfer_inBounds hv accepted.bounds,
          if_neg Bool.false_ne_true, transferFileBlock_eq]
        exact (@blockWalk_write host w address size ⟨w.mem, ⟨backing, offset, []⟩, []⟩ hv
          frames inFile whole _ rfl).1
      · rw [coOsFileBlockReadWrite_calls hv ok] at issued
        obtain ⟨piece, mem, size, answer⟩ := exists_piece issued
        rw [← size, ← answer] at short
        exact absurd (whole piece mem) short
    · have failed := fun ok =>
        accepted ((coOsFileBlockReadWrite_ok_iff host backing offset read hv).mp ok)
      exact ⟨fun ok => absurd ok failed, fun ok => absurd ok failed, fun ok => absurd ok failed,
        fun _ _ _ => failed⟩

/-- A host that moves everything it is asked to. -/
def wholeAnswers : Nat → IoAnswer := fun _ => ⟨.success, wordSize, 0⟩

/-- A read into three pages. -/
theorem blockReadWrite_moved_threePageGuest :
    BlockMoved threePageGuest UInt8.ofNat 512 0xc0000ff0 4128 true
      (coOsFileBlockReadWrite wholeAnswers UInt8.ofNat 512 0xc0000ff0 4128 true
        threePageGuest) := by
  refine (blockReadWrite_moved_iff wholeAnswers UInt8.ofNat true
    threePageGuest_inv.distinctFrames (by decide) (by decide)).mpr
    fun _ => ⟨fun i hi => ⟨?_, ?_⟩, by decide +kernel⟩
  · exact Nat.lt_trans (Nat.add_lt_add_left hi 512) (by decide)
  · have := threePageGuest_range.frames i hi
    rwa [HasFrame, Nat.mod_eq_of_lt (by simp only [wordSize]; omega)]

/-- The answers for a file that ends with the first of three pieces: `STATUS_END_OF_FILE` with no
bytes for the other two. -/
def endingAnswers (k : Nat) : IoAnswer :=
  if k = 0 then ⟨.success, wordSize, 0⟩ else ⟨.endOfFile, 0, 0⟩

/-- A read across the end of the file: the first piece is read, the others are not, and the request
reports OK. -/
theorem blockRead_behindEnd :
    (coOsFileBlockReadWrite endingAnswers UInt8.ofNat 512 0xc0000ff0 4128 true
        threePageGuest).1 = .ok ∧
      ¬ BlockMoved threePageGuest UInt8.ofNat 512 0xc0000ff0 4128 true
        (coOsFileBlockReadWrite endingAnswers UInt8.ofNat 512 0xc0000ff0 4128 true
          threePageGuest) := by
  have ok : (coOsFileBlockReadWrite endingAnswers UInt8.ofNat 512 0xc0000ff0 4128 true
      threePageGuest).1 = .ok := by
    decide +kernel
  refine ⟨ok, fun moved => absurd (moved.whole (by decide) ok) ?_⟩
  decide +kernel

end CoLinux
