import CoLinux.Kernel.Proofs.FrameTables

/-!
# Page frames as the guest's kernel sees them

The guest's kernel counts the pages of its RAM and puts frames of the host into its page table
entries. It goes from one to the other through two arrays in its address space: the page table
entries of RAM, that is the page tables themselves, and the words of the reversed map. The two ways
are inverse to each other in every state that the driver and the requests of the guest reach, exactly
when the page tables had no stale frames in them.
-/

namespace CoLinux

open Lib

/-! ## The macros of `asm/page.h` and what uses them -/

namespace World

/-- The word that the guest reads at a virtual address, when the address is mapped. -/
def guestRead (w : World) (address : Nat) : Option Nat :=
  (w.walk w.monitor.pgd address).map fun frame =>
    w.mem.readWord (frame * coArchPageSize + address % coArchPageSize)

/-- `CO_PFN_PP_TO_P`. -/
def coPfnPpToP (w : World) (pfn : Nat) : Option Nat :=
  (w.guestRead (pteAddress pfn)).map (· >>> coArchPageShift)

/-- `CO_PFN_P_TO_PP`, by the processor's walk. -/
def coPfnPToPpWalk (w : World) (pfn : Nat) : Option Nat := w.guestRead (coVaPfn pfn)

/-- `(pfn << PAGE_SHIFT) | (pa & ~PAGE_MASK)`. -/
def frameAddress (pfn pa : Nat) : Nat :=
  pfn <<< coArchPageShift % wordSize ||| pa % coArchPageSize

/-- `CO_PP_TO_P`. -/
def coPpToP (w : World) (pa : Nat) : Option Nat :=
  (w.coPfnPpToP (pa >>> coArchPageShift)).map (frameAddress · pa)

/-- `CO_P_TO_PP`. -/
def coPToPp (w : World) (pa : Nat) : Option Nat :=
  (w.coPfnPToPpWalk (pa >>> coArchPageShift)).map (frameAddress · pa)

/-- `PTE_PFN_MASK` of a page table with two levels. -/
def ptePfnMask : Nat := 0xfffff000

/-- `pfn_pte` and `pfn_pmd`; the bits are those that `massage_pgprot` leaves of the protection. -/
def pfnPte (w : World) (pageNr pgprot : Nat) : Option Nat :=
  (w.coPfnPpToP pageNr).map fun pfn => pfn <<< coArchPageShift % wordSize ||| pgprot

/-- `pte_pfn`. -/
def ptePfn (w : World) (pte : Nat) : Option Nat :=
  w.coPfnPToPpWalk ((pte &&& ptePfnMask) >>> coArchPageShift)

/-- `pmd_page_vaddr`, with `__va` written out. -/
def pmdPageVaddr (w : World) (pmd : Nat) : Option Nat :=
  (w.coPToPp pmd).map fun pa => ((pa &&& ptePfnMask) + coArchKernelOffset) % wordSize

end World

/-- The two ways between the pages of RAM and the frames of the host. -/
structure TranslatesFrames (w : World) : Prop where
  /-- The guest finds the frame that the driver has recorded, and 0 where there is none. -/
  frame : ∀ n < w.ramPages, w.coPfnPpToP n = some (w.ppPfn (ramPage n))
  /-- An entry that is made for a page is an entry of that page, whatever its protection. -/
  pte : ∀ n < w.ramPages, w.ppPfn (ramPage n) ≠ 0 → ∀ pgprot < coArchPageSize,
    (w.pfnPte n pgprot).bind w.ptePfn = some n
  /-- An address of RAM comes back. -/
  address : ∀ pa < w.monitor.memorySize, w.ppPfn (ramPage (pa / coArchPageSize)) ≠ 0 →
    (w.coPpToP pa).bind w.coPToPp = some pa
  /-- The kernel's address of the page table in a directory entry is mapped to that page table. -/
  pmd : ∀ n < w.ramPages, w.ppPfn (ramPage n) ≠ 0 → ∀ pgprot < coArchPageSize,
    ((w.pfnPte n pgprot).bind w.pmdPageVaddr).bind (w.walk w.monitor.pgd) =
      (w.pfnPte n pgprot).map (· / coArchPageSize)

/-! ## The words that the macros read -/

variable {w w' : World} {virtToPhys : Nat → Nat} {table v : Nat}

/-- Besides `GuestRunning`: the self map leads to the page tables of RAM, and the page directory to
the page table of the reversed map. -/
structure FramesMapped (virtToPhys : Nat → Nat) (table : Nat) (w0 w : World) : Prop where
  running : GuestRunning virtToPhys w0 w
  tables : ∀ v < w.ramPages, w.mem.readWord
    (w.ppPfn selfMapPage * 4096 + 4 * (768 + v / 1024)) = linuxPte (w.ppPfn (tablePage v))
  pgd : w.mem.readWord (w.ppPfn w.swapperPage * 4096 + 4 * 1019) = linuxPte table
  reversed : ReversedTable w table
  aside : HeldAside table w

namespace FramesMapped
variable {w0 : World}

theorem walk_tables (h : FramesMapped virtToPhys table w0 w) (hv : v < w.ramPages) :
    w.walk w.monitor.pgd (pteAddress v) = some (w.ppPfn (tablePage v)) := by
  have small := Nat.lt_of_lt_of_le hv h.running.mapped.inv.size
  rw [pteAddress_eq (by omega)]
  refine h.running.mapped.walk_selfMap (i := 768 + v / 1024) ?_ ?_ (h.tables v hv)
    (h.running.mapped.inv.tables v hv) (h.running.mapped.inv.frames.low _)
  · simp only [coArchPmdSize]
    omega
  · simp only [coArchPageSize, ptrsPerPte]
    omega

theorem guestRead_pte (h : FramesMapped virtToPhys table w0 w) (hv : v < w.ramPages) :
    w.guestRead (pteAddress v) = some (w.pte v) := by
  have small := Nat.lt_of_lt_of_le hv h.running.mapped.inv.size
  have offset : pteAddress v % 4096 = 4 * (v % 1024) := by
    rw [pteAddress_eq (by omega)]
    omega
  rw [World.guestRead, h.walk_tables hv, Option.map_some, coArchPageSize, offset]
  rfl

theorem coPfnPpToP_pte (h : FramesMapped virtToPhys table w0 w) (hv : v < w.ramPages) :
    w.coPfnPpToP v = some (w.pte v / 4096) := by
  rw [World.coPfnPpToP, h.guestRead_pte hv, Option.map_some, Nat.shiftRight_eq_div_pow]
  rfl

theorem coPfnPpToP_eq (h : FramesMapped virtToPhys table w0 w) (hv : v < w.ramPages)
    (recorded : w.ppPfn (ramPage v) ≠ 0) : w.coPfnPpToP v = some (w.ppPfn (ramPage v)) := by
  rw [h.coPfnPpToP_pte hv, (h.running.mapped.inv.virtualFrame v hv).pte recorded,
    (linuxPte_present recorded (h.running.mapped.inv.frames.low _)).2]

/-- The walk to the word of a frame goes over the page table of the reversed map. -/
theorem coPfnPToPpWalk_eq (h : FramesMapped virtToPhys table w0 w) {pfn : Nat}
    (covered : pfn / ptrsPerPte < w.manager.reversedPageCount) :
    w.coPfnPToPpWalk pfn = some (w.reversed pfn) := by
  have count := h.reversed.loaded.count
  have hostmem := h.reversed.loaded.hostmem
  have low : pfn < 2 ^ 20 := by
    simp only [ptrsPerPte] at covered count
    omega
  have address : coVaPfn pfn = 0xfec00000 + 4 * pfn := coVaPfn_eq low
  have pde : w.mem.readWord (w.monitor.pgd + 4 * (coVaPfn pfn / coArchPmdSize)) =
      linuxPte table := by
    have index : coVaPfn pfn / coArchPmdSize = 1019 := by
      rw [address]
      simp only [coArchPmdSize]
      omega
    rw [index, h.running.mapped.pgd]
    exact h.pgd
  have index : coVaPfn pfn / coArchPageSize % ptrsPerPte = pfn / 1024 := by
    rw [address]
    simp only [coArchPageSize, ptrsPerPte]
    omega
  have offset : coVaPfn pfn % 4096 = 4 * (pfn % 1024) := by
    rw [address]
    omega
  have pte : w.mem.readWord (table * 4096 + 4 * (coVaPfn pfn / coArchPageSize % ptrsPerPte)) =
      linuxPte (w.manager.reversedMapPfns (pfn / 1024)) := by
    rw [index]
    exact h.reversed.ptes _ covered
  rw [World.coPfnPToPpWalk, World.guestRead, walk_of_pte h.reversed.present h.reversed.tableLow pde
    pte (h.reversed.low _ covered), if_neg (h.reversed.loaded.present _ covered), Option.map_some,
    coArchPageSize, offset]
  rfl

/-- The frame of a page leads back to the page. -/
theorem coPfnPToPpWalk_frame (h : FramesMapped virtToPhys table w0 w) (hv : v < w.ramPages)
    (recorded : w.ppPfn (ramPage v) ≠ 0) :
    w.coPfnPToPpWalk (w.ppPfn (ramPage v)) = some v := by
  obtain ⟨-, covered, back⟩ := h.running.mapped.inv.virtualFrame v hv
  rw [h.coPfnPToPpWalk_eq (covered recorded), back recorded]

end FramesMapped

/-! ## Entries and addresses -/

open World (frameAddress ptePfnMask)

theorem frameAddress_eq {pfn : Nat} (low : pfn < 2 ^ 20) (pa : Nat) :
    frameAddress pfn pa = pfn * 4096 + pa % 4096 := by
  have inRange : pfn <<< coArchPageShift % wordSize = pfn <<< coArchPageShift := by
    rw [Nat.shiftLeft_eq]
    exact Nat.mod_eq_of_lt (by simp only [coArchPageShift, wordSize]; omega)
  have inPage : pa % coArchPageSize < 2 ^ coArchPageShift := Nat.mod_lt _ (by decide)
  rw [frameAddress, inRange, ← Nat.shiftLeft_add_eq_or_of_lt inPage, Nat.shiftLeft_eq]
  rfl

theorem and_ptePfnMask {pa : Nat} (word : pa < 2 ^ 32) :
    pa &&& ptePfnMask = pa / 4096 * 4096 := by
  have bits : pa &&& ptePfnMask = ((pa >>> 12) &&& (2 ^ 20 - 1)) <<< 12 := by
    apply Nat.eq_of_testBit_eq
    intro i
    rw [show ptePfnMask = (2 ^ 20 - 1) <<< 12 from rfl]
    simp only [Nat.testBit_and, Nat.testBit_shiftLeft, Nat.testBit_shiftRight, ge_iff_le]
    by_cases high : 12 ≤ i
    · simp [high]
    · simp [high]
  rw [bits, Nat.and_two_pow_sub_one_eq_mod, Nat.shiftRight_eq_div_pow, Nat.shiftLeft_eq]
  omega

namespace FramesMapped
variable {w0 : World}

/-- Adding the protection to the address of a frame keeps the frame. -/
theorem pfnPte_eq (h : FramesMapped virtToPhys table w0 w) (hv : v < w.ramPages)
    (recorded : w.ppPfn (ramPage v) ≠ 0) {pgprot : Nat} (bits : pgprot < 4096) :
    w.pfnPte v pgprot = some (w.ppPfn (ramPage v) * 4096 + pgprot) := by
  have address := frameAddress_eq (h.running.mapped.inv.frames.low (ramPage v)) pgprot
  rw [frameAddress, coArchPageSize, Nat.mod_eq_of_lt bits] at address
  rw [World.pfnPte, h.coPfnPpToP_eq hv recorded, Option.map_some, address]

theorem ptePfn_pfnPte (h : FramesMapped virtToPhys table w0 w) (hv : v < w.ramPages)
    (recorded : w.ppPfn (ramPage v) ≠ 0) {pgprot : Nat} (bits : pgprot < 4096) :
    (w.pfnPte v pgprot).bind w.ptePfn = some v := by
  have low := h.running.mapped.inv.frames.low (ramPage v)
  have frame : ((w.ppPfn (ramPage v) * 4096 + pgprot) &&& ptePfnMask) >>> coArchPageShift =
      w.ppPfn (ramPage v) := by
    rw [and_ptePfnMask (by omega), Nat.shiftRight_eq_div_pow]
    simp only [coArchPageShift]
    omega
  rw [h.pfnPte_eq hv recorded bits, Option.bind_some, World.ptePfn, frame]
  exact h.coPfnPToPpWalk_frame hv recorded

/-- An address in the frame of a page, as an address of RAM. -/
theorem coPToPp_frame (h : FramesMapped virtToPhys table w0 w) (hv : v < w.ramPages)
    (recorded : w.ppPfn (ramPage v) ≠ 0) {offset : Nat} (inPage : offset < 4096) :
    w.coPToPp (w.ppPfn (ramPage v) * 4096 + offset) = some (v * 4096 + offset) := by
  have small := Nat.lt_of_lt_of_le hv h.running.mapped.inv.size
  have frame : (w.ppPfn (ramPage v) * 4096 + offset) >>> coArchPageShift =
      w.ppPfn (ramPage v) := by
    rw [Nat.shiftRight_eq_div_pow]
    simp only [coArchPageShift]
    omega
  have inside : (w.ppPfn (ramPage v) * 4096 + offset) % 4096 = offset := by omega
  rw [World.coPToPp, frame, h.coPfnPToPpWalk_frame hv recorded, Option.map_some,
    frameAddress_eq (by omega), inside]

theorem coPToPp_coPpToP (h : FramesMapped virtToPhys table w0 w) {pa : Nat}
    (hv : pa / 4096 < w.ramPages) (recorded : w.ppPfn (ramPage (pa / 4096)) ≠ 0) :
    (w.coPpToP pa).bind w.coPToPp = some pa := by
  have page : pa >>> coArchPageShift = pa / 4096 := Nat.shiftRight_eq_div_pow pa 12
  rw [World.coPpToP, page, h.coPfnPpToP_eq hv recorded, Option.map_some, Option.bind_some,
    frameAddress_eq (h.running.mapped.inv.frames.low _),
    h.coPToPp_frame hv recorded (Nat.mod_lt _ (by decide))]
  congr 1
  omega

theorem walk_pmdPageVaddr (h : FramesMapped virtToPhys table w0 w) (hv : v < w.ramPages)
    (recorded : w.ppPfn (ramPage v) ≠ 0) {pgprot : Nat} (bits : pgprot < 4096) :
    ((w.pfnPte v pgprot).bind w.pmdPageVaddr).bind (w.walk w.monitor.pgd) =
      (w.pfnPte v pgprot).map (· / coArchPageSize) := by
  have small := Nat.lt_of_lt_of_le hv h.running.mapped.inv.size
  have vaddr : ((v * 4096 + pgprot &&& ptePfnMask) + coArchKernelOffset) % wordSize =
      ramAddress v := by
    rw [and_ptePfnMask (by omega)]
    simp only [ramAddress, coArchKernelOffset, wordSize]
    omega
  have page : ramAddress v / 4096 = ramPage v := ramAddress_page v
  rw [h.pfnPte_eq hv recorded bits, Option.bind_some, World.pmdPageVaddr, h.coPToPp_frame hv recorded bits,
    Option.map_some, Option.bind_some, vaddr, h.running.mapped.walk_recorded hv recorded page,
    Option.map_some]
  refine congrArg some ?_
  simp only [coArchPageSize]
  omega

theorem translatesFrames (h : FramesMapped virtToPhys table w0 w)
    (whole : w.monitor.memorySize % 4096 = 0) (blank : PagesFree (· / 4096 = 0) w) :
    TranslatesFrames w where
  frame n hn := by
    by_cases free : w.ppPfn (ramPage n) = 0
    · rw [h.coPfnPpToP_pte hn, blank n hn free, free]
    · exact h.coPfnPpToP_eq hn free
  pte _ hn recorded _ bits := h.ptePfn_pfnPte hn recorded bits
  address pa inRam recorded := by
    refine h.coPToPp_coPpToP ?_ recorded
    rw [World.ramPages]
    omega
  pmd _ hn recorded _ bits := h.walk_pmdPageVaddr hn recorded bits

end FramesMapped

/-! ## The init function -/

section InitStores
variable {pfns pfns' : Nat → Nat} {g s k : Nat}

/-- Above the passage page the self map is a copy of the page directory's entries for it. -/
theorem initStores_selfMap (ne : g ≠ s) (lo : 768 ≤ k) (hi : k < 1024) (low : pfns' k < 2 ^ 20) :
    (initStores virtToPhys w pfns pfns' g s).readWord (s * 4096 + 4 * k) = linuxPte (pfns' k) := by
  unfold initStores
  rw [readWord_otherIndex _ (.inr (by omega)), readWord_otherIndex _ (.inr (by omega)),
    readWord_otherIndex _ (.inr (by omega)), readWord_otherFrame _ ne (by decide) hi]
  have stored := readWord_index ((w.mem.writeWords (g * 4096 + 4 * 0) 1024 fun i =>
    linuxPte (pfns i)).writeWords (g * 4096 + 4 * 1019) 4 w.manager.reversedMapPgds) (p := s)
    (i := 0) (n := 1024) (f := fun i => linuxPte (pfns' i)) hi (linuxPte_lt low)
  rwa [Nat.zero_add] at stored

theorem initStores_reversedPgd (ne : s ≠ g) (low : w.manager.reversedMapPgds 0 < 2 ^ 32) :
    (initStores virtToPhys w pfns pfns' g s).readWord (g * 4096 + 4 * 1019) =
      w.manager.reversedMapPgds 0 := by
  unfold initStores
  rw [readWord_otherFrame _ ne (by decide) (by decide),
    readWord_otherFrame _ ne (by decide) (by decide),
    readWord_otherFrame _ ne (by decide) (by decide), readWord_otherIndex _ (.inr (by decide)),
    readWord_otherFrame _ ne (by decide) (by decide)]
  exact readWord_index _ (i := 1019) (k := 0) (n := 4) (f := w.manager.reversedMapPgds) (by decide)
    low

end InitStores

/-- Stores into two frames leave the others alone. -/
theorem initStores_frameKept {pfns pfns' : Nat → Nat} {g s q : Nat} (hg : g ≠ q) (hs : s ≠ q) :
    ∀ i < 4096, (initStores virtToPhys w pfns pfns' g s) (q * 4096 + i) = w.mem (q * 4096 + i) := by
  intro i hi
  have other : ∀ (m : ByteMem) {p j n : Nat} (f : Nat → Nat), p ≠ q → j + n ≤ 1024 →
      (m.writeWords (p * 4096 + 4 * j) n f) (q * 4096 + i) = m (q * 4096 + i) :=
    fun m p j n f ne inside => m.writeWords_outside f (by omega)
  unfold initStores
  rw [other _ _ hs (by decide), other _ _ hs (by decide), other _ _ hs (by decide),
    other _ _ hg (by decide), other _ _ hs (by decide), other _ _ hg (by decide),
    other _ _ hg (by decide)]

/-- The init function after the passage page is there. -/
theorem initPageTables_framesMapped (inv : PagesInv w) (swapper : SwapperLoaded w)
    (pgd : w.monitor.pgd = w.ppPfn w.swapperPage * 4096)
    (phys : ∀ a, virtToPhys a / 4096 < 2 ^ 20) (reversed : ReversedTable w table)
    (aside : HeldAside table w) (ok : initPageTables virtToPhys w = (.ok, w'))
    (swapper' : SwapperLoaded w') : FramesMapped virtToPhys table w' w' := by
  obtain ⟨mapped, machine, -⟩ := initPageTables_mapped inv swapper pgd phys (by rw [ok])
  have notSelfMap := swapper.ne_selfMapPage inv
  obtain ⟨m, w3, recorded, result⟩ := initPageTables_eq (inv.loaded.pgds.trans rfl)
    swapper.address_eq (swapper.low inv) swapper.loaded
    (show (initPageTables virtToPhys w).1 = .ok by rw [ok])
  rw [ok] at mapped machine result
  dsimp only at mapped machine result
  have directory : w3.ppPfn w.swapperPage = w.ppPfn w.swapperPage :=
    recorded.kept (.inr notSelfMap)
  have selfMap : w3.ppPfn selfMapPage ≠ 0 := recorded.ppPfn_ne
  have final : ∀ n, w'.ppPfn n = w3.ppPfn n := fun n => by rw [result, ppPfn_setMem]
  have frames := mapped.inv.frames
  have apart : w3.ppPfn selfMapPage ≠ w3.ppPfn w.swapperPage := by
    intro same
    rw [← final, ← final] at same
    exact notSelfMap (frames.distinct _ _ (by rw [final]; exact selfMap) same).symm
  rw [directory] at apart
  have left : HeldAside table w3 :=
    (recorded.leftAside ⟨aside.ne, aside.out, aside.unrecorded⟩).aside
  have aside' : HeldAside table w' := by
    rw [result]
    exact ⟨left.ne, left.out, left.unrecorded⟩
  have memory := congrArg World.mem result
  rw [setMem_mem] at memory
  have kept : FrameKept w w' table := fun i hi => by
    rw [memory]
    exact initStores_frameKept (aside.unrecorded _) (left.unrecorded _) i hi
  refine ⟨⟨mapped, swapper', .refl w', .refl w'⟩, fun v hv => ?_, ?_,
    reversed.transport mapped.inv.loaded machine.manager kept, aside'⟩
  · rw [machine.ramPages] at hv
    have hv18 := Nat.lt_of_lt_of_le hv inv.size
    have index : ppPagetablesPfns w3 (768 + v / 1024) = w'.ppPfn (tablePage v) := by
      rw [final]
      exact ppPagetablesPfns_tablePage w3 v
    rw [final, memory, initStores_selfMap apart.symm (by omega) (by omega)
      (by rw [index]; exact frames.low _), index]
  · rw [machine.swapperPage, final, directory, memory,
      initStores_reversedPgd apart (by rw [reversed.pgd]; exact linuxPte_lt reversed.tableLow)]
    exact reversed.pgd

/-- What a successful `guest_address_space_init` ends with. -/
theorem guestAddressSpaceInit_last {host : PassageHost virtToPhys} (inv : PagesInv w)
    (swapper : SwapperLoaded w)
    (ok : guestAddressSpaceInit (setUpPassagePage host) virtToPhys w = (.ok, w')) :
    initPageTables virtToPhys
      (setUpPassagePage host (w.setPgd (w.ppPfn w.swapperPage * 4096))).2 = (.ok, w') := by
  have page : w.monitor.kernelSwapperPgDir / coArchPageSize = w.swapperPage := rfl
  have get : coMonitorGetPfn w.monitor.kernelSwapperPgDir w = .ok (w.ppPfn w.swapperPage) := by
    rw [coMonitorGetPfn, page, if_neg]
    rw [Bool.not_eq_true, Option.isNone_eq_false_iff]
    exact ppPfn_group swapper.loaded
  have pgd : w.ppPfn w.swapperPage <<< coArchPageShift % wordSize =
      w.ppPfn w.swapperPage * 4096 := by
    have low := inv.frames.low w.swapperPage
    rw [Nat.shiftLeft_eq]
    simp only [wordSize, coArchPageShift]
    omega
  unfold guestAddressSpaceInit at ok
  rw [get] at ok
  dsimp only at ok
  rw [pgd] at ok
  have granted : (setUpPassagePage host (w.setPgd (w.ppPfn w.swapperPage * 4096))).1 = .ok := by
    by_contra failed
    rw [Step.andThen_of_ne failed] at ok
    exact failed (by rw [ok])
  rw [Step.andThen_of_ok granted] at ok
  -- the group of the page tables is there
  obtain ⟨passagePage, monitor⟩ :=
    (setUpPassagePage_setUp host (w.setPgd (w.ppPfn w.swapperPage * 4096))).monitor
  obtain ⟨u, hu, -⟩ := swapper.inRam
  have small := Nat.lt_of_lt_of_le hu inv.size
  have group := ppPfn_group (inv.tables u hu)
  rw [show tablePage u / ptrsPerPte = coVptrPseudoRamPageTables / coArchPmdSize by
    simp only [tablePage, ptrsPerPte, coVptrPseudoRamPageTables, coVptrBase, coArchPmdSize]
    omega] at group
  rw [monitor, if_neg] at ok
  · exact ok
  · rw [Bool.not_eq_true, Option.isNone_eq_false_iff]
    exact group

/-- A successful `guest_address_space_init`. -/
theorem guestAddressSpaceInit_framesMapped {host : PassageHost virtToPhys} (inv : PagesInv w)
    (swapper : SwapperLoaded w) (phys : ∀ a, virtToPhys a / 4096 < 2 ^ 20)
    (reversed : ReversedTable w table)
    (aside : HeldAside table w)
    (ok : guestAddressSpaceInit (setUpPassagePage host) virtToPhys w = (.ok, w')) :
    FramesMapped virtToPhys table w' w' := by
  obtain ⟨-, swapper', -⟩ := guestAddressSpaceInit_mapped inv swapper phys ok
  have last := guestAddressSpaceInit_last inv swapper ok
  obtain ⟨manager, ⟨passagePage, monitor⟩, out, answers, kept⟩ :=
    setUpPassagePage_setUp host (w.setPgd (w.ppPfn w.swapperPage * 4096))
  generalize (setUpPassagePage host (w.setPgd (w.ppPfn w.swapperPage * 4096))).2 = w1 at *
  have samePfns : w1.ppPfn = w.ppPfn := by
    funext n
    rw [World.ppPfn, monitor]
    rfl
  have samePage : w1.swapperPage = w.swapperPage := by
    rw [World.swapperPage, monitor]
    rfl
  have samePages : w1.ramPages = w.ramPages := by
    rw [World.ramPages, monitor]
    rfl
  obtain ⟨inv1, -⟩ := inv.transport manager samePfns (by rw [monitor]; rfl) out
    (fun a mem => answers ▸ mem) kept
  have swapper1 : SwapperLoaded w1 := by
    refine ⟨?_, ?_, ?_⟩
    · rw [monitor]
      exact swapper.aligned
    · rw [samePage, samePages]
      exact swapper.inRam
    · rw [samePage, samePfns]
      exact swapper.loaded
  refine initPageTables_framesMapped inv1 swapper1 ?_ phys
    (reversed.transport inv1.loaded manager (kept table aside.out)) ⟨aside.ne, out _ aside.out, ?_⟩
    last swapper'
  · rw [samePage, samePfns, monitor]
    rfl
  · rw [samePfns]
    exact aside.unrecorded

/-! ## Runs -/

/-- One call on a page of RAM other than the page directory's. -/
theorem FramesMapped.step {w0 : World} (h : FramesMapped virtToPhys table w0 w)
    (hv : v < w.ramPages) (ne : ramPage v ≠ w.swapperPage) (step : RamStep w v w')
    (free : KeepsFree w w') (left : LeftAside table w w') :
    FramesMapped virtToPhys table w0 w' := by
  have mapped := h.running.mapped
  have hv18 := Nat.lt_of_lt_of_le hv mapped.inv.size
  have directory : w'.ppPfn w.swapperPage = w.ppPfn w.swapperPage := step.other _ ne.symm
  have selfMap : w'.ppPfn selfMapPage = w.ppPfn selfMapPage :=
    step.other _ (by simp only [ramPage, selfMapPage]; omega)
  have keptDirectory : FrameKept w w' (w.ppPfn w.swapperPage) := by
    refine step.kept_page mapped.inv mapped.directory fun same => ?_
    obtain ⟨u, hu, page⟩ := h.running.swapper.inRam
    exact tablePage_ne_ramPage (Nat.lt_of_lt_of_le hu mapped.inv.size) v (same.symm.trans page)
  have keptSelfMap : FrameKept w w' (w.ppPfn selfMapPage) :=
    step.kept_page mapped.inv mapped.selfMap (by simp only [tablePage, selfMapPage]; omega)
  refine ⟨h.running.step hv ne step free, fun u hu => ?_, ?_,
    h.reversed.transport step.inv.loaded step.machine.manager left.kept, left.aside⟩
  · rw [step.machine.ramPages] at hu
    have small := Nat.lt_of_lt_of_le hu mapped.inv.size
    rw [selfMap, step.other _ (tablePage_ne_ramPage hv18 u), keptSelfMap.readWord (by omega)]
    exact h.tables u hu
  · rw [step.machine.swapperPage, directory, keptDirectory.readWord (by decide)]
    exact h.pgd

/-- A valid request keeps what the calls on every page but the page directory's keep. -/
theorem GuestRequest.step_keeps {P : World → Prop} {w0 : World} (ram : RamRange w0)
    (size : w0.ramPages ≤ 251904) {r : GuestRequest} (valid : r.Valid w0)
    (alloc : ∀ s v, v < w0.ramPages → ramPage v ≠ w0.swapperPage → P s →
      P (coMonitorAllocAndMapPage (ramAddress v) s).2)
    (free : ∀ s v, v < w0.ramPages → ramPage v ≠ w0.swapperPage → P s →
      P (coMonitorFreeAndUnmapPage (ramAddress v) s).2) (h : P w) : P (r.step w) := by
  obtain ⟨aligned, lo, hi, notSwapper⟩ := valid
  have range := ram.range
  have whole := ram.whole
  obtain ⟨v, address⟩ : ∃ v, r.address = ramAddress v := by
    refine ⟨(r.address - coArchKernelOffset) / 4096, ?_⟩
    simp only [ramAddress, coArchKernelOffset] at *
    omega
  have inRange : v + r.pages ≤ w0.ramPages := by
    rw [address] at hi
    simp only [ramAddress, World.ramPages, coArchKernelOffset] at *
    omega
  have apart : ∀ u, v ≤ u → u < v + r.pages → ramPage u ≠ w0.swapperPage := by
    intro u h1 h2 same
    rw [address] at notSwapper
    simp only [ramAddress, ramPage, World.swapperPage, coArchKernelOffset] at *
    omega
  have alloc' : ∀ s u, v ≤ u → u < v + r.pages → P s →
      P (coMonitorAllocAndMapPage (ramAddress u) s).2 :=
    fun s u h1 h2 => alloc s u (by omega) (apart u h1 h2)
  have free' : ∀ s u, v ≤ u → u < v + r.pages → P s →
      P (coMonitorFreeAndUnmapPage (ramAddress u) s).2 :=
    fun s u h1 h2 => free s u (by omega) (apart u h1 h2)
  cases r with
  | allocPages a n =>
    obtain rfl : a = ramAddress v := address
    exact allocPagesLoop_keeps (i := 0) (Nat.le_trans inRange size) alloc' free' h
  | freePages a n =>
    obtain rfl : a = ramAddress v := address
    exact freePagesLoop_keeps (Nat.le_trans inRange size) free' h

theorem GuestRequest.step_framesMapped {w0 : World} (ram : RamRange w0) (r : GuestRequest)
    (valid : r.Valid w0) (h : FramesMapped virtToPhys table w0 w) :
    FramesMapped virtToPhys table w0 (r.step w) := by
  have size : w0.ramPages ≤ 251904 := h.running.machine.ramPages ▸ h.running.mapped.inv.size
  refine GuestRequest.step_keeps ram size valid (fun s v hv ne hs => ?_) (fun s v hv ne hs => ?_) h
  · have inv := hs.running.mapped.inv
    rw [← hs.running.machine.ramPages] at hv
    rw [← hs.running.machine.swapperPage] at ne
    exact hs.step hv ne (coMonitorAllocAndMapPage_step inv hv).1
      (coMonitorAllocAndMapPage_keepsFree inv hv)
      (coMonitorAllocAndMapPage_leftAside inv hs.aside hs.reversed.apart hv)
  · have inv := hs.running.mapped.inv
    rw [← hs.running.machine.ramPages] at hv
    rw [← hs.running.machine.swapperPage] at ne
    exact hs.step hv ne (coMonitorFreeAndUnmapPage_step inv hv).1
      (coMonitorFreeAndUnmapPage_keepsFree inv hv)
      (coMonitorFreeAndUnmapPage_leftAside inv hs.aside hs.reversed.apart hv)

/-- A call that loads the kernel leaves the frame alone. -/
theorem PageOp.step_leftAside {op : PageOp} {q : Nat} (ram : RamRange w) (inv : PagesInv w)
    (inRam : op.InRam w.monitor.endPhysical) (aside : HeldAside q w)
    (notReversed : ∀ k < w.manager.reversedPageCount, w.manager.reversedMapPfns k ≠ q) :
    LeftAside q w (op.step w) := by
  cases op with
  | allocAndMap a =>
    obtain ⟨v, hv, rfl⟩ := ramAddress_of_page ram.range ram.whole inRam.1 inRam.2.1 inRam.2.2
    exact coMonitorAllocAndMapPage_leftAside inv aside notReversed hv
  | freeAndUnmap a =>
    obtain ⟨v, hv, rfl⟩ := ramAddress_of_page ram.range ram.whole inRam.1 inRam.2.1 inRam.2.2
    exact coMonitorFreeAndUnmapPage_leftAside inv aside notReversed hv
  | copyRegion a size data =>
    have top : a + size ≤ ramAddress w.ramPages := by
      have high := inRam.2
      have range := ram.range
      have whole := ram.whole
      simp only [ramAddress, World.ramPages, coArchKernelOffset] at *
      omega
    exact coMonitorCopyRegion_leftAside data inv aside notReversed inRam.1 top

theorem run_leftAside {q : Nat} (ram : RamRange w) (inv : PagesInv w) (aside : HeldAside q w)
    (notReversed : ∀ k < w.manager.reversedPageCount, w.manager.reversedMapPfns k ≠ q)
    {ops : List PageOp} (inRam : ∀ op ∈ ops, op.InRam w.monitor.endPhysical) :
    LeftAside q w (run PageOp.step ops w) := by
  have reached := @run_invariant _ _ PageOp.step (fun _ op => op.InRam w.monitor.endPhysical)
    (fun s => PagesInv s ∧ SameMachine w s ∧ LeftAside q w s) ?_ ops w ⟨inv, .refl w, .refl aside⟩
    (runOk_of_forall inRam)
  · exact reached.2.2
  · rintro s op ⟨inv, machine, left⟩ inRam
    have ram' := machine.ramRange ram
    have inRam' : op.InRam s.monitor.endPhysical := by
      rw [machine.endPhysical]
      exact inRam
    obtain ⟨inv', -, machine', -⟩ := PageOp.step_inv ram'.range ram'.whole inv inRam'
    exact ⟨inv', machine.trans machine', left.trans
      (PageOp.step_leftAside ram' inv inRam' left.aside (machine.manager ▸ notReversed))⟩

/-- From a host whose reversed map was built: after `alloc_pp_ram_mapping`, any calls that load the
kernel, a successful `guest_address_space_init` and any valid requests of the guest, the guest's two
ways between pages of its RAM and frames of the host are inverse to each other, exactly when no page of
RAM without a frame had an entry with a frame number before the init function. -/
theorem guest_translates_iff {driver w0 w1 w2 : World} {mb n : Nat} {host : PassageHost virtToPhys}
    (hostmem : driver.manager.hostmemPages = coOsPhysicalMemoryPages n)
    (supported : driver.manager.hostmemPages ≤ 2 ^ 20) (nonempty : 0 < driver.manager.hostmemPages)
    (load : coManagerAllocReversedPfns driver = some (.ok, w0))
    (size : w0.monitor.memorySize = adjustedMemorySize mb)
    (range : w0.monitor.endPhysical = coArchKernelOffset + w0.monitor.memorySize)
    (alloc : allocPpRamMapping w0 = (.ok, w1)) (loads : List PageOp)
    (inRam : ∀ op ∈ loads, op.InRam w1.monitor.endPhysical)
    (swapper : SwapperLoaded (run PageOp.step loads w1)) (phys : ∀ a, virtToPhys a < wordSize)
    (init : guestAddressSpaceInit (setUpPassagePage host) virtToPhys (run PageOp.step loads w1) =
      (.ok, w2)) :
    (∀ requests : List GuestRequest, (∀ r ∈ requests, r.Valid w2) →
      TranslatesFrames (run GuestRequest.step requests w2)) ↔
    PagesFree (· / 4096 = 0) (run PageOp.step loads w1) := by
  have loaded := coManagerAllocReversedPfns_loaded supported load
  have same := coManagerAllocReversedPfns_hostmem load
  obtain ⟨table, out, reversed⟩ := coManagerAllocReversedPfns_heldTable supported nonempty load
  have mapped := allocPpRamMapping_ok loaded size alloc
  have covered := mapped.covered (same.trans hostmem)
  have ram1 := mapped.ramRange size range
  have aside1 := allocPpRamMapping_heldAside reversed.present out size alloc
  have reversed1 : ReversedTable w1 table :=
    reversed.transport mapped.loaded mapped.manager fun _ _ => by rw [mapped.mem]
  obtain ⟨inv, -, machine⟩ := run_pagesInv ram1 (mapped.inv covered) inRam
  have left := run_leftAside ram1 (mapped.inv covered) aside1 reversed1.apart inRam
  have low : ∀ a, virtToPhys a / 4096 < 2 ^ 20 := by
    intro a
    have word := phys a
    simp only [wordSize] at word
    omega
  have frames := guestAddressSpaceInit_framesMapped inv swapper low
    (reversed1.transport inv.loaded machine.manager left.kept) left.aside init
  obtain ⟨-, -, sameRam, memory, physical⟩ := guestAddressSpaceInit_mapped inv swapper low init
  have ram := machine.ramRange ram1
  have ram2 : RamRange w2 := by
    refine ⟨?_, ?_⟩
    · rw [physical, memory]
      exact ram.range
    · rw [memory]
      exact ram.whole
  have pages : w2.ramPages = (run PageOp.step loads w1).ramPages := by
    rw [World.ramPages, memory, World.ramPages]
  refine Iff.trans ?_ (sameRam.pagesFree pages)
  constructor
  · intro translates v hv free
    have read := (translates [] (by simp)).frame v hv
    rw [run_nil, frames.coPfnPpToP_pte hv, free] at read
    exact Option.some.inj read
  · intro blank requests valid
    have reached : FramesMapped virtToPhys table w2 (run GuestRequest.step requests w2) :=
      run_invariant (fun s r hs valid => r.step_framesMapped ram2 valid hs) frames
        (runOk_of_forall valid)
    exact reached.translatesFrames (reached.running.machine.ramRange ram2).whole
      (reached.running.keepsFree rfl blank)

/-! ## A host -/

/-- A host of 32 MB before the driver is loaded. -/
def bareHost : World :=
  { mappedHost [] with
    host :=
      { out := []
        answers := (List.range' 4096 14).map some
        mallocs := List.replicate 8 true } }

/-- The host with the driver's reversed map. -/
def loadedHost : World := ((coManagerAllocReversedPfns bareHost).map Prod.snd).getD bareHost

theorem loadedHost_load : coManagerAllocReversedPfns bareHost = some (.ok, loadedHost) := by
  obtain ⟨w', load⟩ := exists_loaded
    (show (coManagerAllocReversedPfns bareHost).map Prod.fst = some .ok by decide +kernel)
  rw [loadedHost, load]
  rfl

theorem loadedHost_mem :
    ∃ f, loadedHost.mem = ByteMem.writeWords (fun _ => 0) (4104 * 4096) 1024 f :=
  ⟨_, rfl⟩

/-- A page for the guest, after which it is given back. -/
theorem guest_translates_bareHost : TranslatesFrames
    (run GuestRequest.step [.allocPages 0xc0002000 1, .freePages 0xc0002000 1]
      (started loadedHost)) := by
  have loaded := coManagerAllocReversedPfns_loaded (by decide) loadedHost_load
  have ok : (allocPpRamMapping loadedHost).1 = .ok := by decide +kernel
  have mapped := allocPpRamMapping_ok loaded (show _ = adjustedMemorySize 8 from rfl)
    (Step.eq_of_ok ok)
  have inRam : ∀ op ∈ [PageOp.copyRegion 0xc0000000 16 none],
      op.InRam (allocPpRamMapping loadedHost).2.monitor.endPhysical := by
    intro op hop
    obtain rfl := List.mem_singleton.mp hop
    exact ⟨by decide, by decide +kernel⟩
  have hostmem : bareHost.manager.hostmemPages = coOsPhysicalMemoryPages 8100 := by decide
  have same := coManagerAllocReversedPfns_hostmem loadedHost_load
  have covered := mapped.covered (same.trans hostmem)
  refine (guest_translates_iff hostmem (by decide) (by decide) loadedHost_load
    (show _ = adjustedMemorySize 8 from rfl) rfl (Step.eq_of_ok ok)
    [.copyRegion 0xc0000000 16 none] inRam
    ⟨by decide +kernel, ⟨0, by decide +kernel, by decide +kernel⟩, by decide +kernel⟩
    (fun a => (highToPhys_shared loadedHost).word a) (Step.eq_of_ok (by decide +kernel))).mpr ?_ _
      fun r hr => ?_
  swap
  · rcases List.mem_cons.mp hr with rfl | hr
    · exact ⟨by decide, by decide, by decide +kernel, .inl (by decide +kernel)⟩
    · obtain rfl := List.mem_singleton.mp hr
      exact ⟨by decide, by decide, by decide +kernel, .inl (by decide +kernel)⟩
  refine (run_pagesInv (mapped.ramRange rfl rfl) (mapped.inv covered) inRam).2.1 rfl fun v hv _ => ?_
  -- the page tables lie outside the page table of the reversed map
  have other : (allocPpRamMapping loadedHost).2.ppPfn (tablePage v) ≠ 4104 := by
    have pages : (allocPpRamMapping loadedHost).2.ramPages = 2048 := by decide +kernel
    have table : v / 1024 = 0 ∨ v / 1024 = 1 := by omega
    unfold tablePage
    rcases table with table | table
    · rw [table]
      decide +kernel
    · rw [table]
      decide +kernel
  obtain ⟨f, mem⟩ := loadedHost_mem
  have zero : (allocPpRamMapping loadedHost).2.pte v = 0 := by
    rw [World.pte, mapped.mem, mem, World.pteSlot]
    exact readWord_otherFrame (i := 0) _ other.symm (by decide) (Nat.mod_lt _ (by decide))
  rw [zero]

end CoLinux
