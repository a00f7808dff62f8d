import CoLinux.Winnt.ScsiTransfer

/-!
# The copy of a scatter/gather list

`_scsi_dio` works on a copy of the guest's list. A copy that succeeds shows the bytes the guest has
at the list's address, page by page, so its entries are those of the guest. Only a list of 2^32
bytes or more is cut off, as its length is computed in a word; the loop then goes on with what lies
behind the copy.
-/

namespace CoLinux

open Lib

/-! ## Copying a range of the guest -/

section Walk

variable {w : World} {address size : Nat} {s : Transfer HostCursor}

theorem transferPage_memcpy (pfn n : Nat) (s : Transfer HostCursor) :
    transferPage (coMonitorTransferMemcpy .fromLinux) pfn address n s =
      (CoRc.ok, {
        mem := s.mem
        hostData :=
          { buffer := s.hostData.buffer.copyBytes s.hostData.position n fun i =>
              s.mem (pfn * coArchPageSize + address % coArchPageSize + i)
            position := s.hostData.position + n }
        mapped := s.mapped ++ [(address, pfn)] }) := rfl

/-- Only a missing group stops the copy. -/
theorem memcpyWalk_ok_iff (hv : address < wordSize) :
    (coSplitByPagesAndCallback (transferTurn w (coMonitorTransferMemcpy .fromLinux)) address size
        s).1 = .ok ↔ ∀ i < size, HasGroup w (address + i) := by
  induction size using Nat.strongRecOn generalizing address s with
  | ind size ih =>
    by_cases hs : size = 0
    · subst hs
      simp
    obtain ⟨pos, le, inPage⟩ := partSize_bounds hv hs
    rw [coSplit_turn s hv hs]
    generalize min (pagePart address) size = n at pos le inPage
    rw [forall_group_split hv pos le inPage]
    by_cases group : HasGroup w address
    · rw [transferTurn_group hv group, transferPage_memcpy, Step.andThen_ok,
        ih (size - n) (by omega) (Nat.mod_lt _ (by decide)), and_iff_right group]
    · rw [transferTurn_noGroup hv group, Step.andThen_of_ne (by simp)]
      exact ⟨fun ok => absurd ok (by simp), fun h => absurd h.1 group⟩

/-- A copy that succeeds has the guest's bytes in the buffer, in order. -/
theorem memcpyWalk_buffer (hv : address < wordSize)
    (groups : ∀ i < size, HasGroup w (address + i)) :
    (coSplitByPagesAndCallback (transferTurn w (coMonitorTransferMemcpy .fromLinux)) address size
        s).2.hostData.buffer =
      s.hostData.buffer.copyBytes s.hostData.position size fun i =>
        s.mem (w.byteSlot (address + i)) := by
  induction size using Nat.strongRecOn generalizing address s with
  | ind size ih =>
    by_cases hs : size = 0
    · subst hs
      funext x
      rw [ByteMem.copyBytes_outside _ _ (by omega)]
      rfl
    obtain ⟨pos, le, inPage⟩ := partSize_bounds hv hs
    rw [coSplit_turn s hv hs]
    generalize min (pagePart address) size = n at pos le inPage
    obtain ⟨group, rest⟩ := (forall_group_split hv pos le inPage).mp groups
    rw [transferTurn_group hv group, transferPage_memcpy, Step.andThen_ok,
      ih (size - n) (by omega) (Nat.mod_lt _ (by decide)) rest]
    funext x
    dsimp only
    by_cases first : s.hostData.position ≤ x ∧ x < s.hostData.position + n
    · rw [ByteMem.copyBytes_outside _ _ (.inl first.2),
        ByteMem.copyBytes_inside _ _ first.1 first.2,
        ByteMem.copyBytes_inside _ _ first.1 (by omega), byteSlot_piece w hv inPage (by omega)]
      rfl
    · by_cases inside : s.hostData.position + n ≤ x ∧ x < s.hostData.position + size
      · rw [ByteMem.copyBytes_inside _ _ inside.1 (by omega),
          ByteMem.copyBytes_inside _ _ (by omega) inside.2, byteSlot_next,
          show n + (x - (s.hostData.position + n)) = x - s.hostData.position by omega]
      · rw [ByteMem.copyBytes_outside _ _ (by omega), ByteMem.copyBytes_outside _ _ (by omega),
          ByteMem.copyBytes_outside _ _ (by omega)]

end Walk

/-! ## The entries of the copy -/

variable {layout : ScatterlistLayout} {heap : ByteMem} {io : CoScsiIo} {w : World}

/-- The bound checks let the list through, and every page of it is in an allocated group. -/
structure SgListReadable (layout : ScatterlistLayout) (io : CoScsiIo) (w : World) : Prop where
  bounds : TransferInBounds w.monitor.endPhysical io.sg (io.count * layout.size % wordSize)
  groups : ∀ i < io.count * layout.size % wordSize, HasGroup w (io.sg + i)

/-- The entries the loop works on: the guest's, and where the list is cut off, what the heap has
behind the block. -/
def sgSeen (layout : ScatterlistLayout) (heap : ByteMem) (io : CoScsiIo) (w : World) :
    List SgEntry :=
  sgEntries layout (heap.copyBytes 0 (io.count * layout.size % wordSize) (sgMemory io w)) io.count

theorem copyList_ok_iff (hsg : io.sg < wordSize) :
    (ScsiDio.copyList layout heap io w).1 = .ok ↔ SgListReadable layout io w := by
  unfold ScsiDio.copyList coMonitorLinuxvmToHost
  by_cases bounds : TransferInBounds w.monitor.endPhysical io.sg
    (io.count * layout.size % wordSize)
  · rw [coMonitorHostLinuxvmTransfer_inBounds hsg bounds, memcpyWalk_ok_iff hsg]
    exact ⟨fun groups => ⟨bounds, groups⟩, fun readable => readable.groups⟩
  · rw [coMonitorHostLinuxvmTransfer, if_neg bounds]
    exact ⟨fun ok => absurd ok (by simp), fun readable => absurd readable.bounds bounds⟩

theorem copyList_entries (hsg : io.sg < wordSize) (readable : SgListReadable layout io w) :
    sgEntries layout (ScsiDio.copyList layout heap io w).2.2 io.count =
      sgSeen layout heap io w := by
  unfold ScsiDio.copyList coMonitorLinuxvmToHost
  rw [coMonitorHostLinuxvmTransfer_inBounds hsg readable.bounds]
  dsimp only
  rw [memcpyWalk_buffer hsg readable.groups]
  rfl

/-- The entries of a list depend on its own bytes only. -/
theorem sgEntries_congr {buf buf' : ByteMem} {count : Nat}
    (same : ∀ i < count * layout.size, buf i = buf' i) :
    sgEntries layout buf count = sgEntries layout buf' count := by
  refine List.map_congr_left fun x hx => ?_
  have inside : (x + 1) * layout.size ≤ count * layout.size :=
    Nat.mul_le_mul_right _ (List.mem_range.mp hx)
  have word (at_ : Nat) (fieldInside : at_ + 4 ≤ layout.size) :
      buf.readWord (x * layout.size + at_) = buf'.readWord (x * layout.size + at_) := by
    refine ByteMem.readWord_congr fun i _ hi => same i ?_
    rw [Nat.add_mul, Nat.one_mul] at inside
    omega
  rw [word _ layout.dmaAddressInside, word _ layout.lengthInside]

/-- A list that is not cut off is the guest's. -/
theorem sgSeen_eq (whole : io.count * layout.size < wordSize) :
    sgSeen layout heap io w = sgList layout io w := by
  refine sgEntries_congr fun i hi => ?_
  rw [Nat.mod_eq_of_lt whole, ByteMem.copyBytes_inside _ _ (Nat.zero_le _) (by omega), Nat.sub_zero]

end CoLinux
