import CoLinux.Kernel.GuestWalk
import CoLinux.Kernel.ReversedLookup

/-!
# A frame that is nobody's page

The page table of the reversed map is a frame that the driver holds and records for no page of the
guest. Whatever the driver does for a guest leaves such a frame alone, and with it the way from the
page directory to the words of the reversed map.
-/

namespace CoLinux

open Lib

variable {w w' w'' : World} {q v : Nat}

/-- A frame that the driver holds and has recorded for no page. -/
structure HeldAside (q : Nat) (w : World) : Prop where
  ne : q ≠ 0
  out : q ∈ w.host.out
  unrecorded : ∀ n, w.ppPfn n ≠ q

/-- The frame is still held aside, with the bytes that it had. -/
structure LeftAside (q : Nat) (w w' : World) : Prop where
  aside : HeldAside q w'
  kept : FrameKept w w' q

theorem FrameKept.refl (w : World) (q : Nat) : FrameKept w w q := fun _ _ => rfl

theorem FrameKept.trans (h : FrameKept w w' q) (h' : FrameKept w' w'' q) : FrameKept w w'' q :=
  fun i hi => (h' i hi).trans (h i hi)

theorem LeftAside.refl (h : HeldAside q w) : LeftAside q w w := ⟨h, .refl w q⟩

theorem LeftAside.trans (h : LeftAside q w w') (h' : LeftAside q w' w'') : LeftAside q w w'' :=
  ⟨h'.aside, h.kept.trans h'.kept⟩

/-- A new frame is not the one held aside: that one is out. -/
theorem Recorded.leftAside {n : Nat} (h : Recorded w n w') (aside : HeldAside q w) :
    LeftAside q w w' := by
  refine ⟨⟨aside.ne, h.out aside.out aside.ne, fun m => ?_⟩, fun i _ => by rw [h.mem]⟩
  cases h with
  | had _ h =>
    rw [h.ppPfn]
    exact aside.unrecorded m
  | got p _ _ _ fresh _ h =>
    rw [h.ppPfn, record]
    split
    · intro same
      exact fresh (same ▸ aside.out)
    · exact aside.unrecorded m

/-- A call on a page of RAM that does not record the frame for it. -/
theorem RamStep.leftAside (step : RamStep w v w') (aside : HeldAside q w)
    (notReversed : ∀ k < w.manager.reversedPageCount, w.manager.reversedMapPfns k ≠ q)
    (own : w'.ppPfn (ramPage v) ≠ q) : LeftAside q w w' := by
  refine ⟨⟨aside.ne, ?_, fun n => ?_⟩, step.kept q (aside.unrecorded _) notReversed⟩
  · rcases step.out q aside.out aside.ne with same | out
    · exact absurd same.symm (aside.unrecorded _)
    · exact out
  · by_cases same : n = ramPage v
    · rwa [same]
    · rw [step.other n same]
      exact aside.unrecorded n

section Calls
variable (inv : PagesInv w) (aside : HeldAside q w)
  (notReversed : ∀ k < w.manager.reversedPageCount, w.manager.reversedMapPfns k ≠ q)
include inv aside notReversed

theorem coMonitorAllocAndMapPage_leftAside (hv : v < w.ramPages) :
    LeftAside q w (coMonitorAllocAndMapPage (ramAddress v) w).2 := by
  obtain ⟨step, outcome⟩ := coMonitorAllocAndMapPage_step inv hv
  refine step.leftAside aside notReversed ?_
  rcases outcome with ⟨-, -, none, -⟩ | ⟨-, -, same, -⟩ | ⟨-, -, new⟩
  · rw [none]
    exact aside.ne.symm
  · rw [same]
    exact aside.unrecorded _
  · intro same
    exact (mem_freeFrames.mp new).2.2.2 (same ▸ aside.out)

theorem coMonitorFreeAndUnmapPage_leftAside (hv : v < w.ramPages) :
    LeftAside q w (coMonitorFreeAndUnmapPage (ramAddress v) w).2 := by
  obtain ⟨step, none, -⟩ := coMonitorFreeAndUnmapPage_step inv hv
  refine step.leftAside aside notReversed ?_
  rw [none]
  exact aside.ne.symm

/-- A piece of a copy goes to a recorded frame. -/
theorem copyRegionSplitCallback_leftAside {o n : Nat} (data : Option (Nat → UInt8)) (d : Nat)
    (lo : coArchKernelOffset ≤ o) (hi : o + n ≤ ramAddress w.ramPages) (pos : 0 < n)
    (inPage : o % 4096 + n ≤ 4096) :
    LeftAside q w (copyRegionSplitCallback data o n (w, d)).2.1 := by
  obtain ⟨v, hv, page⟩ : ∃ v < w.ramPages, o / 4096 * 4096 = ramAddress v := by
    refine ⟨o / 4096 - 0xc0000, ?_, ?_⟩ <;>
      simp only [ramAddress, coArchKernelOffset] at * <;> omega
  have left := coMonitorAllocAndMapPage_leftAside inv aside notReversed hv
  unfold copyRegionSplitCallback
  simp only [coArchPageSize, page]
  generalize coMonitorAllocAndMapPage (ramAddress v) w = r at left
  obtain ⟨rc, w1⟩ := r
  dsimp only at left ⊢
  split
  · exact left
  cases got : coMonitorGetPfn (ramAddress v) w1 with
  | error rc => exact left
  | ok pfn =>
    -- the page is recorded, so its frame is another one
    have frame : pfn = w1.ppPfn (ramPage v) := by
      rw [coMonitorGetPfn, ramAddress_page] at got
      split at got
      · cases got
      · exact (Except.ok.inj got).symm
    have other : pfn ≠ q := frame ▸ left.aside.unrecorded _
    refine left.trans ⟨⟨aside.ne, left.aside.out, left.aside.unrecorded⟩, fun i hi => ?_⟩
    exact ByteMem.copyBytes_outside _ _ (by omega)

end Calls

theorem coMonitorCopyRegion_leftAside {a size : Nat} (data : Option (Nat → UInt8))
    (inv : PagesInv w) (aside : HeldAside q w)
    (notReversed : ∀ k < w.manager.reversedPageCount, w.manager.reversedMapPfns k ≠ q)
    (lo : coArchKernelOffset ≤ a) (hi : a + size ≤ ramAddress w.ramPages) :
    LeftAside q w (coMonitorCopyRegion a size data w).2 := by
  have top : ramAddress w.ramPages ≤ wordSize := by
    have size := inv.size
    simp only [ramAddress, coArchKernelOffset, wordSize]
    omega
  obtain ⟨onOk, onFail⟩ := @coSplit_rule _ (copyRegionSplitCallback data)
    (fun _ s => PagesInv s.1 ∧ SameMachine w s.1 ∧ LeftAside q w s.1)
    (fun s => LeftAside q w s.1) a size
    (by
      rintro o n ⟨w1, d⟩ h1 h2 pos inPage ⟨inv1, machine, left⟩
      have hi1 : o + n ≤ ramAddress w1.ramPages :=
        machine.ramPages ▸ Nat.le_trans h2 hi
      obtain ⟨inv2, machine2, -⟩ := copyRegionSplitCallback_inv data d inv1 (Nat.le_trans lo h1)
        hi1 pos inPage
      have left2 := copyRegionSplitCallback_leftAside inv1 left.aside
        (machine.manager ▸ notReversed) data d (Nat.le_trans lo h1) hi1 pos inPage
      exact ⟨fun _ => ⟨inv2, machine.trans machine2, left.trans left2⟩, fun _ => left.trans left2⟩)
    (Nat.le_trans hi top) (w, 0) ⟨inv, .refl w, .refl aside⟩
  unfold coMonitorCopyRegion
  by_cases ok : (coSplitByPagesAndCallback (copyRegionSplitCallback data) a size (w, 0)).1 = .ok
  · exact (onOk ok).2.2
  · exact onFail ok

/-! ## A new monitor -/

theorem coMonitorScanAndCreatePfns_heldAside {o n : Nat} (range : o + n ≤ wordSize)
    (aside : HeldAside q w) (ok : coMonitorScanAndCreatePfns o n w = (.ok, w')) :
    HeldAside q w' ∧ SameMachine w w' := by
  have rule := @coSplit_rule _ (scanPfnsSplitCallback none true)
    (fun _ s => HeldAside q s.1 ∧ SameMachine w s.1) (fun _ => True) o n
    (by
      rintro o' k ⟨w1, d⟩ - - - - ⟨aside1, machine⟩
      refine ⟨fun ok => ?_, fun _ => trivial⟩
      obtain ⟨w2, recorded, result⟩ := scanPfnsSplitCallback_ok ok
      rw [result, callScanFunc]
      exact ⟨(recorded.leftAside aside1).aside, machine.trans recorded.sameMachine⟩)
    range (w, 0) ⟨aside, .refl w⟩
  simp only [coMonitorScanAndCreatePfns, coManagerScanPfnsAndCallback, Prod.mk.injEq] at ok
  rw [← ok.2]
  exact rule.1 ok.1

theorem scanPageTables_heldAside (small : w.monitor.memorySize ≤ 0x3d800000)
    (whole : w.monitor.memorySize % 4096 = 0) (aside : HeldAside q w)
    (ok : scanPageTables w = (.ok, w')) : HeldAside q w' := by
  have total := pageTablesSize w.monitor.memorySize whole
  unfold scanPageTables at ok
  generalize hr : coMonitorScanAndCreatePfns _ _ w = r at ok
  obtain ⟨rc, w1⟩ := r
  by_cases first : rc = .ok
  · subst first
    obtain ⟨full, machine⟩ := coMonitorScanAndCreatePfns_heldAside (by
      simp only [coVptrPseudoRamPageTables, coVptrBase, wordSize]
      omega) aside hr
    have same : w1.monitor.memorySize = w.monitor.memorySize := by
      obtain ⟨-, groups, blocks, hm⟩ := machine
      rw [hm]
    rw [Step.andThen_ok, same] at ok
    split at ok
    · refine (coMonitorScanAndCreatePfns_heldAside ?_ full ok).1
      simp only [coVptrPseudoRamPageTables, coVptrBase, wordSize]
      omega
    · rw [Prod.mk.injEq] at ok
      exact ok.2 ▸ full
  · rw [Step.andThen_of_ne first, Prod.mk.injEq] at ok
    exact absurd ok.1 first

/-- `alloc_pp_ram_mapping` starts without recorded frames. -/
theorem allocPpRamMapping_heldAside {mb : Nat} (ne : q ≠ 0) (out : q ∈ w.host.out)
    (size : w.monitor.memorySize = adjustedMemorySize mb)
    (ok : allocPpRamMapping w = (.ok, w')) : HeldAside q w' := by
  obtain ⟨n, lo, hi, hn⟩ := adjustedMemorySize_cases mb
  unfold allocPpRamMapping at ok
  obtain ⟨blocks, mallocs, hw⟩ := coMonitorMalloc_cases w
  generalize coMonitorMalloc w = r at hw ok
  obtain ⟨rc, w1⟩ := r
  by_cases granted : rc = .ok
  · subst granted
    rw [Step.andThen_ok] at ok
    dsimp only at hw ok
    generalize hw2 : ({ w1 with monitor := _ } : World) = w2 at ok
    have size2 : w2.monitor.memorySize = n * 1048576 := by rw [← hw2, hw, ← hn, ← size]
    have start : HeldAside q w2 := by
      refine ⟨ne, ?_, fun m same => ne ?_⟩
      · rw [← hw2, hw]
        exact out
      · rw [← same, ← hw2]
        rfl
    by_cases done : (scanPageTables w2).1 = .ok
    · rw [if_pos done] at ok
      exact scanPageTables_heldAside (by omega) (by omega) start ok
    · rw [if_neg done, Prod.mk.injEq] at ok
      exact absurd ok.1 done
  · rw [Step.andThen_of_ne granted, Prod.mk.injEq] at ok
    exact absurd ok.1 granted

/-- The page of the first page directory entry of the reversed map is one that the host gave. -/
theorem allocReversedPgds_out {n used : Nat} (hostmem : w.manager.hostmemPages ≤ 2 ^ 20)
    (nonempty : 0 < w.manager.hostmemPages)
    (ok : allocReversedPgds (n + 1) (w, 0) = (.ok, w', used)) :
    ∃ pfn ∈ w'.host.out, pfn ≠ 0 ∧ pfn < 2 ^ 20 ∧
      w'.manager.reversedMapPgds 0 = linuxPte pfn := by
  induction n generalizing w' used with
  | zero =>
    have first : ¬w.manager.hostmemPages ≤ 0 * (ptrsPerPte * ptrsPerPgd) := by
      rw [Nat.zero_mul]
      exact Nat.not_le.mpr nonempty
    rw [allocReversedPgds, allocReversedPgds, Step.andThen_ok] at ok
    simp only [first, if_false] at ok
    cases hp : coManagerGetPage w with
    | mk result w2 =>
      cases result with
      | error rc =>
        simp only [hp, Prod.mk.injEq] at ok
        exact absurd ok.1 (coManagerGetPage_error hp).1
      | ok p =>
        simp only [hp, Prod.mk.injEq, true_and] at ok
        obtain ⟨rest, -, ne, -, below, rfl⟩ := coManagerGetPage_ok hp
        refine ⟨p, ?_, ne, Nat.lt_of_lt_of_le below hostmem, ?_⟩
        · rw [← ok.1]
          exact List.mem_cons_self
        · rw [← ok.1]
          exact (if_neg ne).symm
  | succ n ih =>
    rw [allocReversedPgds] at ok
    generalize hr : allocReversedPgds (n + 1) (w, 0) = r at ok
    obtain ⟨rc, w1, used1⟩ := r
    by_cases first : rc = .ok
    · subst first
      obtain ⟨pfn, out, ne, low, pgd⟩ := ih hr
      obtain ⟨-, kept, -⟩ := allocReversedPgds_keeps (n + 1) (w, 0)
      rw [hr] at kept
      have done : w1.manager.hostmemPages ≤ (n + 1) * (ptrsPerPte * ptrsPerPgd) := by
        have same : w1.manager.hostmemPages = w.manager.hostmemPages := kept
        simp only [ptrsPerPte, ptrsPerPgd]
        omega
      rw [Step.andThen_ok] at ok
      simp only [done, if_true, Prod.mk.injEq, true_and] at ok
      refine ⟨pfn, ?_, ne, low, ?_⟩
      · rw [← ok.1]
        exact out
      · rw [← ok.1]
        show (if 0 = n + 1 then 0 else w1.manager.reversedMapPgds 0) = _
        rw [if_neg (by omega)]
        exact pgd
    · rw [Step.andThen_of_ne first, Prod.mk.injEq] at ok
      exact absurd ok.1 first

/-- A successful load leaves a page table of the reversed map that the driver holds. -/
theorem coManagerAllocReversedPfns_heldTable (hostmem : w.manager.hostmemPages ≤ 2 ^ 20)
    (nonempty : 0 < w.manager.hostmemPages)
    (load : coManagerAllocReversedPfns w = some (.ok, w')) :
    ∃ table ∈ w'.host.out, ReversedTable w' table := by
  obtain ⟨table, reversed⟩ := coManagerAllocReversedPfns_table hostmem nonempty load
  refine ⟨table, ?_, reversed⟩
  obtain ⟨w1, w2, w3, used, hostmem1, -, top, manager3, -, pgds⟩ :=
    coManagerAllocReversedPfns_loops load
  obtain ⟨-, hostmem2, -⟩ := allocTopLevelPages_ok top
  have hostmem3 : w3.manager.hostmemPages = w.manager.hostmemPages := by
    rw [manager3]
    exact hostmem2.trans hostmem1
  obtain ⟨pfn, out, ne, low, pgd⟩ :=
    @allocReversedPgds_out w3 w' 3 used (hostmem3 ▸ hostmem) (hostmem3 ▸ nonempty) pgds
  have same : linuxPte table = linuxPte pfn := reversed.pgd.symm.trans pgd
  rw [linuxPte_of_ne reversed.present reversed.tableLow, linuxPte_of_ne ne low] at same
  have eq : table = pfn := by omega
  exact eq ▸ out

/-- The way to the words of the reversed map is kept with the frame of its page table. -/
theorem ReversedTable.transport {table : Nat} (h : ReversedTable w table)
    (loaded : ManagerLoaded w') (manager : w'.manager = w.manager)
    (kept : FrameKept w w' table) : ReversedTable w' table := by
  refine ⟨loaded, ?_, ?_, h.present, h.tableLow, ?_, fun j hj => ?_⟩
  · rw [manager]
    exact h.low
  · rw [manager]
    exact h.pgd
  · rw [manager]
    exact h.apart
  · have count := h.loaded.count
    have hostmem := h.loaded.hostmem
    rw [manager] at hj ⊢
    rw [kept.readWord (by simp only [ptrsPerPte] at count; omega)]
    exact h.ptes j hj

end CoLinux
