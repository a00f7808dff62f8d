import CoLinux.Kernel.GuestMemory
import CoLinux.Winnt.Block
import Mathlib.Data.List.Basic

/-!
# Files of the host

What `ZwReadFile` and `ZwWriteFile` do on a synchronous handle, for a transfer function that is
called for one page of a range after the other. The answers of the host are given.
-/

namespace CoLinux

open Lib

/-- The offsets that are a position in a file: `LARGE_INTEGER` is signed. -/
def maxFileOffset : Nat := 9223372036854775808

/-- An answer of `ZwReadFile` or `ZwWriteFile`. -/
structure IoAnswer where
  status : NtStatus
  /-- `isb.Information`: how many bytes it has moved. -/
  information : Nat
  /-- Where it has moved them when the offset is not a position: -1 stands for the end of the file
  and -2 for the current position. -/
  position : Nat

/-- A call of `ZwReadFile` or `ZwWriteFile`, with the position it used. -/
structure IoCall where
  buffer : Nat
  position : Nat
  size : Nat
  answer : IoAnswer

/-- The file and the running offset of a transfer. -/
structure FileIo where
  backing : ByteMem
  offset : Nat
  /-- The calls made, oldest first. -/
  calls : List IoCall

/-- The call gets the answer `host` has for its number. It never moves more than it was asked
to. -/
def zwTransferFile (host : Nat → IoAnswer) (dir : TransferDir) (buffer size : Nat)
    (s : ByteMem × FileIo) : IoAnswer × ByteMem × FileIo :=
  let answer := host s.2.calls.length
  let count := min answer.information size
  let position := if s.2.offset < maxFileOffset then s.2.offset else answer.position
  let calls := s.2.calls ++ [⟨buffer, position, size, answer⟩]
  match dir with
  | .fromHost =>
    (answer, s.1.copyBytes buffer count fun i => s.2.backing (position + i),
      { s.2 with calls := calls })
  | .fromLinux =>
    (answer, s.1,
      { s.2 with
        backing := s.2.backing.copyBytes position count fun i => s.1 (buffer + i)
        calls := calls })

/-- All of the bytes were moved. -/
def IoAnswer.Whole (answer : IoAnswer) (size : Nat) : Prop :=
  answer.status = .success ∧ size ≤ answer.information

instance (answer : IoAnswer) (size : Nat) : Decidable (answer.Whole size) := instDecidableAnd

theorem IoAnswer.Whole.converted {answer : IoAnswer} {size : Nat} (h : answer.Whole size) :
    coStatusConvert answer.status = .ok := by
  rw [h.1]
  rfl

/-- A transfer function that makes one call for its piece. `advances` says for which status the
running offset moves on. -/
def transferFile (advances : NtStatus → Bool) (host : Nat → IoAnswer) (dir : TransferDir) :
    TransferFunc FileIo :=
  fun linuxvm size s =>
    let io := zwTransferFile host dir linuxvm size s
    (coStatusConvert io.1.status, io.2.1,
      { io.2.2 with offset :=
          if advances io.1.status then (io.2.2.offset + size) % quadSize else io.2.2.offset })

/-! ## The pieces of a range -/

/-- The address and the size of each piece that a range is cut into. -/
def pageParts (vaddr size : Nat) : List (Nat × Nat) :=
  (coSplitByPagesAndCallback (fun o n parts => (.ok, parts ++ [(o, n)])) vaddr size []).2

/-- A piece of a range: where its bytes are in host memory, and what the host answers for it. -/
structure FilePiece where
  slot : Nat
  size : Nat
  answer : IoAnswer

/-- The pieces of a range, for a host whose next call has the number `k`. -/
def filePieces (w : World) (host : Nat → IoAnswer) (k vaddr size : Nat) : List FilePiece :=
  (pageParts vaddr size).mapIdx fun j part => ⟨w.guestAddress part.1, part.2, host (k + j)⟩

/-- The calls for some pieces, from the offset `offset` on. -/
def callsFrom (advances : NtStatus → Bool) : Nat → List FilePiece → List IoCall
  | _, [] => []
  | offset, piece :: pieces =>
    ⟨piece.slot, if offset < maxFileOffset then offset else piece.answer.position, piece.size,
        piece.answer⟩ ::
      callsFrom advances
        (if advances piece.answer.status then (offset + piece.size) % quadSize else offset) pieces

/-- The offset behind some pieces. -/
def offsetAfter (advances : NtStatus → Bool) (offset : Nat) (pieces : List FilePiece) : Nat :=
  pieces.foldl (fun offset piece =>
    if advances piece.answer.status then (offset + piece.size) % quadSize else offset) offset

theorem pageParts_acc {vaddr size : Nat} (hv : vaddr < wordSize) (parts : List (Nat × Nat)) :
    (coSplitByPagesAndCallback (fun o n parts => (.ok, parts ++ [(o, n)])) vaddr size parts).2 =
      parts ++ pageParts vaddr size := by
  induction size using Nat.strongRecOn generalizing vaddr parts with
  | ind size ih =>
    by_cases hs : size = 0
    · subst hs
      exact (List.append_nil _).symm
    · obtain ⟨pos, le, -⟩ := partSize_bounds hv hs
      rw [pageParts, coSplit_turn _ hv hs, coSplit_turn _ hv hs]
      generalize min (pagePart vaddr) size = n at pos le
      have next := fun parts => @ih (size - n) (by omega) ((vaddr + n) % wordSize)
        (Nat.mod_lt _ (by decide)) parts
      rw [Step.andThen_ok, Step.andThen_ok, next, next, List.nil_append, List.append_assoc]

theorem pageParts_cons {vaddr size : Nat} (hv : vaddr < wordSize) (hs : size ≠ 0) :
    pageParts vaddr size = (vaddr, min (pagePart vaddr) size) ::
      pageParts ((vaddr + min (pagePart vaddr) size) % wordSize)
        (size - min (pagePart vaddr) size) := by
  rw [pageParts, coSplit_turn _ hv hs, Step.andThen_ok,
    pageParts_acc (Nat.mod_lt _ (by decide)), List.nil_append, List.singleton_append]

@[simp] theorem filePieces_zero (w : World) (host : Nat → IoAnswer) (k vaddr : Nat) :
    filePieces w host k vaddr 0 = [] := rfl

theorem filePieces_cons (w : World) (host : Nat → IoAnswer) (k : Nat) {vaddr size : Nat}
    (hv : vaddr < wordSize) (hs : size ≠ 0) :
    filePieces w host k vaddr size =
      ⟨w.guestAddress vaddr, min (pagePart vaddr) size, host k⟩ ::
        filePieces w host (k + 1) ((vaddr + min (pagePart vaddr) size) % wordSize)
          (size - min (pagePart vaddr) size) := by
  rw [filePieces, pageParts_cons hv hs, List.mapIdx_cons, filePieces]
  simp only [Nat.add_zero, Nat.add_assoc, Nat.add_comm 1]

theorem callsFrom_append (advances : NtStatus → Bool) (offset : Nat) (ps qs : List FilePiece) :
    callsFrom advances offset (ps ++ qs) =
      callsFrom advances offset ps ++ callsFrom advances (offsetAfter advances offset ps) qs := by
  induction ps generalizing offset with
  | nil => rfl
  | cons p ps ih =>
    rw [List.cons_append, callsFrom, ih, callsFrom, List.cons_append]
    rfl

theorem callsFrom_length (advances : NtStatus → Bool) (offset : Nat) (ps : List FilePiece) :
    (callsFrom advances offset ps).length = ps.length := by
  induction ps generalizing offset with
  | nil => rfl
  | cons p ps ih => simp only [callsFrom, List.length_cons, ih]

theorem offsetAfter_piece {advances : NtStatus → Bool} {piece : FilePiece} (offset : Nat)
    (moves : advances piece.answer.status = true) :
    offsetAfter advances offset [piece] = (offset + piece.size) % quadSize := by
  rw [offsetAfter, List.foldl_cons, List.foldl_nil, if_pos moves]

/-- Every piece has a call, and every call a piece. -/
theorem exists_call (advances : NtStatus → Bool) (offset : Nat) {pieces : List FilePiece}
    {piece : FilePiece} (h : piece ∈ pieces) :
    ∃ call ∈ callsFrom advances offset pieces, call.size = piece.size ∧
      call.answer = piece.answer := by
  induction pieces generalizing offset with
  | nil => exact absurd h List.not_mem_nil
  | cons p pieces ih =>
    rcases List.mem_cons.mp h with rfl | h
    · exact ⟨_, List.mem_cons_self, rfl, rfl⟩
    · obtain ⟨call, mem, same⟩ := ih _ h
      exact ⟨call, List.mem_cons_of_mem _ mem, same⟩

theorem exists_piece {advances : NtStatus → Bool} {offset : Nat} {pieces : List FilePiece}
    {call : IoCall} (h : call ∈ callsFrom advances offset pieces) :
    ∃ piece ∈ pieces, piece.size = call.size ∧ piece.answer = call.answer := by
  induction pieces generalizing offset with
  | nil => exact absurd h List.not_mem_nil
  | cons p pieces ih =>
    rcases List.mem_cons.mp h with rfl | h
    · exact ⟨p, List.mem_cons_self, rfl, rfl⟩
    · obtain ⟨piece, mem, same⟩ := ih h
      exact ⟨piece, List.mem_cons_of_mem _ mem, same⟩

theorem offsetAfter_append (advances : NtStatus → Bool) (offset : Nat) (ps qs : List FilePiece) :
    offsetAfter advances offset (ps ++ qs) =
      offsetAfter advances (offsetAfter advances offset ps) qs :=
  List.foldl_append

/-- Where host memory keeps the guest byte at an address that may wrap. -/
def World.byteSlot (w : World) (a : Nat) : Nat := w.guestAddress (a % wordSize)

theorem byteSlot_next (w : World) (a n i : Nat) :
    w.byteSlot ((a + n) % wordSize + i) = w.byteSlot (a + (n + i)) := by
  rw [World.byteSlot, Nat.mod_add_mod, Nat.add_assoc, World.byteSlot]

/-- The bytes of a piece lie one behind the other in host memory. -/
theorem byteSlot_piece (w : World) {address n i : Nat} (hv : address < wordSize)
    (inPage : address % 4096 + n ≤ 4096) (hi : i < n) :
    w.byteSlot (address + i) = w.guestAddress address + i := by
  have small : address + i < wordSize := by
    simp only [wordSize] at *
    omega
  rw [World.byteSlot, Nat.mod_eq_of_lt small, guestAddress_piece w inPage hi]

theorem transferPage_rc {δ : Type} (func : TransferFunc δ) (w : World) (vaddr n : Nat)
    (s : Transfer δ) :
    (transferPage func (w.ppPfn (vaddr / coArchPageSize)) vaddr n s).1 =
      (func (w.guestAddress vaddr) n (s.mem, s.hostData)).1 := rfl

theorem transferPage_hostData {δ : Type} (func : TransferFunc δ) (w : World) (vaddr n : Nat)
    (s : Transfer δ) :
    (transferPage func (w.ppPfn (vaddr / coArchPageSize)) vaddr n s).2.hostData =
      (func (w.guestAddress vaddr) n (s.mem, s.hostData)).2.2 := rfl

/-- The addresses of a range are those of its first piece and those of the rest. -/
theorem forall_group_split {w : World} {vaddr n size : Nat} (hv : vaddr < wordSize)
    (pos : 0 < n) (le : n ≤ size) (inPage : vaddr % 4096 + n ≤ 4096) :
    (∀ i < size, HasGroup w (vaddr + i)) ↔
      HasGroup w vaddr ∧ ∀ i < size - n, HasGroup w ((vaddr + n) % wordSize + i) := by
  constructor
  · intro groups
    exact ⟨groups 0 (by omega), fun i hi => hasGroup_next.mpr (groups (n + i) (by omega))⟩
  · rintro ⟨first, rest⟩ i hi
    by_cases inFirst : i < n
    · exact first.samePage hv inPage inFirst
    · have := hasGroup_next.mp (rest (i - n) (by omega))
      rwa [Nat.add_sub_cancel' (by omega)] at this

theorem HasFrame.hasGroup {w : World} {a : Nat} (h : HasFrame w a) : HasGroup w a := ppPfn_group h

/-! ## The walk -/

section Walk

variable {advances : NtStatus → Bool} {host : Nat → IoAnswer} {dir : TransferDir} {w : World}
  {address size n : Nat} {s : Transfer FileIo}

theorem zwTransferFile_answer (linuxvm : Nat) (m : ByteMem × FileIo) :
    (zwTransferFile host dir linuxvm n m).1 = host m.2.calls.length := by
  cases dir <;> rfl

theorem zwTransferFile_calls (linuxvm : Nat) (m : ByteMem × FileIo) :
    (zwTransferFile host dir linuxvm n m).2.2.calls = m.2.calls ++
      [⟨linuxvm, if m.2.offset < maxFileOffset then m.2.offset else
        (host m.2.calls.length).position, n, host m.2.calls.length⟩] := by
  cases dir <;> rfl

theorem zwTransferFile_offset (linuxvm : Nat) (m : ByteMem × FileIo) :
    (zwTransferFile host dir linuxvm n m).2.2.offset = m.2.offset := by
  cases dir <;> rfl

theorem transferFile_rc (linuxvm : Nat) (m : ByteMem × FileIo) :
    (transferFile advances host dir linuxvm n m).1 =
      coStatusConvert (host m.2.calls.length).status := by
  rw [transferFile, zwTransferFile_answer]

theorem transferFile_calls (linuxvm : Nat) (m : ByteMem × FileIo) :
    (transferFile advances host dir linuxvm n m).2.2.calls = m.2.calls ++
      callsFrom advances m.2.offset [⟨linuxvm, n, host m.2.calls.length⟩] := by
  rw [transferFile, zwTransferFile_answer, callsFrom, callsFrom]
  exact zwTransferFile_calls linuxvm m

theorem transferFile_count (linuxvm : Nat) (m : ByteMem × FileIo) :
    (transferFile advances host dir linuxvm n m).2.2.calls.length = m.2.calls.length + 1 := by
  rw [transferFile_calls, List.length_append, callsFrom_length]
  rfl

theorem transferFile_offset (linuxvm : Nat) (m : ByteMem × FileIo) :
    (transferFile advances host dir linuxvm n m).2.2.offset =
      offsetAfter advances m.2.offset [⟨linuxvm, n, host m.2.calls.length⟩] := by
  rw [transferFile, zwTransferFile_answer, zwTransferFile_offset]
  rfl

/-- The walk succeeds when no group is missing and no status is taken for a failure. -/
theorem fileWalk_ok_iff (hv : address < wordSize) :
    (coSplitByPagesAndCallback (transferTurn w (transferFile advances host dir)) address size
        s).1 = .ok ↔
      (∀ i < size, HasGroup w (address + i)) ∧
        ∀ piece ∈ filePieces w host s.hostData.calls.length address size,
          coStatusConvert piece.answer.status = .ok := by
  induction size using Nat.strongRecOn generalizing address s with
  | ind size ih =>
    by_cases hs : size = 0
    · subst hs
      simp
    obtain ⟨pos, le, inPage⟩ := partSize_bounds hv hs
    rw [coSplit_turn s hv hs, filePieces_cons w host _ hv hs, List.forall_mem_cons]
    generalize min (pagePart address) size = n at pos le inPage
    rw [forall_group_split hv pos le inPage]
    by_cases group : HasGroup w address
    · rw [transferTurn_group hv group]
      have rc : (transferPage (transferFile advances host dir) (w.ppPfn (address / coArchPageSize))
          address n s).1 = coStatusConvert (host s.hostData.calls.length).status := by
        rw [transferPage_rc, transferFile_rc]
      by_cases done : coStatusConvert (host s.hostData.calls.length).status = .ok
      · rw [Step.andThen_of_ok (rc.trans done), ih (size - n) (by omega) (Nat.mod_lt _ (by decide)),
          transferPage_hostData, transferFile_count]
        exact ⟨fun h => ⟨⟨group, h.1⟩, done, h.2⟩, fun h => ⟨h.1.2, h.2.2⟩⟩
      · rw [Step.andThen_of_ne (rc ▸ done), rc]
        exact ⟨fun ok => absurd ok done, fun h => absurd h.2.1 done⟩
    · rw [transferTurn_noGroup hv group, Step.andThen_of_ne (by simp)]
      exact ⟨fun ok => absurd ok (by simp), fun h => absurd h.1.1 group⟩

/-- A walk that succeeds has made a call for every piece. -/
theorem fileWalk_calls (hv : address < wordSize)
    (ok : (coSplitByPagesAndCallback (transferTurn w (transferFile advances host dir)) address size
      s).1 = .ok) {r : Step (Transfer FileIo)}
    (hr : coSplitByPagesAndCallback (transferTurn w (transferFile advances host dir)) address size
      s = r) :
    r.2.hostData.calls = s.hostData.calls ++ callsFrom advances s.hostData.offset
        (filePieces w host s.hostData.calls.length address size) ∧
      r.2.hostData.offset = offsetAfter advances s.hostData.offset
        (filePieces w host s.hostData.calls.length address size) := by
  induction size using Nat.strongRecOn generalizing address s with
  | ind size ih =>
    by_cases hs : size = 0
    · subst hs hr
      exact ⟨(List.append_nil _).symm, rfl⟩
    obtain ⟨pos, le, inPage⟩ := partSize_bounds hv hs
    have groups := ((fileWalk_ok_iff hv).mp ok).1
    have statuses := ((fileWalk_ok_iff hv).mp ok).2
    rw [coSplit_turn s hv hs] at ok hr
    rw [filePieces_cons w host _ hv hs] at statuses ⊢
    generalize min (pagePart address) size = n at pos le inPage ok hr statuses
    have group := ((forall_group_split hv pos le inPage).mp groups).1
    rw [transferTurn_group hv group] at ok hr
    have done : (transferPage (transferFile advances host dir) (w.ppPfn (address / coArchPageSize))
        address n s).1 = .ok := by
      rw [transferPage_rc, transferFile_rc]
      exact (List.forall_mem_cons.mp statuses).1
    rw [Step.andThen_of_ok done] at ok hr
    obtain ⟨calls, offset⟩ := ih (size - n) (by omega) (Nat.mod_lt _ (by decide)) ok hr
    rw [transferPage_hostData, transferFile_count, transferFile_calls, transferFile_offset,
      List.append_assoc, ← callsFrom_append, List.singleton_append] at calls
    rw [transferPage_hostData, transferFile_count, transferFile_offset, ← offsetAfter_append,
      List.singleton_append] at offset
    exact ⟨calls, offset⟩

end Walk

end CoLinux
