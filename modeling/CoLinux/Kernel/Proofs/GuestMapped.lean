import CoLinux.Kernel.AddressSpace

/-!
# What `guest_address_space_init` leaves

`GuestMapped` says where the entries of the page directory and of the self map point. The init
function establishes it by a sequence of stores into two frames, each of which leaves the words
written before it alone; a call on a RAM page keeps it because it stores into neither frame.
-/

namespace CoLinux

open Lib

variable {w w' : World} {v : Nat}

/-- The guest page number of the page directory. -/
def World.swapperPage (w : World) : Nat := w.monitor.kernelSwapperPgDir / 4096

/-- The guest page number of the self map. -/
abbrev selfMapPage : Nat := 0xfe800

/-- The entries the processor's walk reads outside the page tables of RAM. -/
structure DirectoryWords (virtToPhys : Nat → Nat) (w : World) : Prop where
  tables : ∀ v < w.ramPages, w.mem.readWord
    (w.ppPfn w.swapperPage * 4096 + 4 * (768 + v / 1024)) = linuxPte (w.ppPfn (tablePage v))
  selfMapPgd : w.mem.readWord (w.ppPfn w.swapperPage * 4096 + 4 * 1018) =
    linuxPte (w.ppPfn selfMapPage)
  self : w.mem.readWord (w.ppPfn selfMapPage * 4096 + 4 * 0) = linuxPte (w.ppPfn selfMapPage)
  passage : w.mem.readWord (w.ppPfn selfMapPage * 4096 + 4 * 767) =
    linuxPte (virtToPhys w.monitor.passagePage / 4096)
  io : ∀ k < 16, w.mem.readWord (w.ppPfn selfMapPage * 4096 + 4 * (512 + k)) =
    linuxPte (virtToPhys (w.monitor.ioBuffer + 4096 * k) / 4096)

/-- The page directory and the self map are filled. -/
structure GuestMapped (virtToPhys : Nat → Nat) (w : World) : Prop where
  inv : PagesInv w
  directory : w.ppPfn w.swapperPage ≠ 0
  selfMap : w.ppPfn selfMapPage ≠ 0
  pgd : w.monitor.pgd = w.ppPfn w.swapperPage * 4096
  words : DirectoryWords virtToPhys w

/-- The frames and the entries of RAM are the same. -/
structure SameRam (w w' : World) : Prop where
  ppPfn : ∀ v < w.ramPages, w'.ppPfn (ramPage v) = w.ppPfn (ramPage v)
  pte : ∀ v < w.ramPages, w'.pte v = w.pte v

theorem SameRam.pagesFree {P : Nat → Prop} (h : SameRam w w') (pages : w'.ramPages = w.ramPages) :
    PagesFree P w' ↔ PagesFree P w := by
  unfold PagesFree
  rw [pages]
  refine forall_congr' fun v => forall_congr' fun hv => ?_
  rw [h.ppPfn v hv, h.pte v hv]

theorem SameMachine.swapperPage (h : SameMachine w w') : w'.swapperPage = w.swapperPage := by
  obtain ⟨-, groups, blocks, hm⟩ := h
  rw [World.swapperPage, hm]
  rfl

/-! ## Calls on RAM pages keep it -/

/-- A frame of a guest page that is neither the page of the call nor a page table. -/
theorem RamStep.kept_page (step : RamStep w v w') (inv : PagesInv w) {n : Nat}
    (hn : w.ppPfn n ≠ 0) (table : n ≠ tablePage v) : FrameKept w w' (w.ppPfn n) :=
  step.kept _ (fun same => table (inv.frames.distinct _ _ hn same.symm))
    (inv.frames.notReversed _ hn)

theorem GuestMapped.step {virtToPhys : Nat → Nat} (h : GuestMapped virtToPhys w)
    (hv : v < w.ramPages) (swapper : ramPage v ≠ w.swapperPage)
    (inRam : ∃ u < w.ramPages, w.swapperPage = ramPage u) (step : RamStep w v w') :
    GuestMapped virtToPhys w' := by
  have hv18 := Nat.lt_of_lt_of_le hv h.inv.size
  have page := step.machine.swapperPage
  have directory : w'.ppPfn w.swapperPage = w.ppPfn w.swapperPage := step.other _ swapper.symm
  have selfMap : w'.ppPfn selfMapPage = w.ppPfn selfMapPage :=
    step.other _ (by simp only [ramPage, selfMapPage]; omega)
  have keptDirectory : FrameKept w w' (w.ppPfn w.swapperPage) := by
    refine step.kept_page h.inv h.directory fun same => ?_
    obtain ⟨u, hu, at'⟩ := inRam
    exact tablePage_ne_ramPage (Nat.lt_of_lt_of_le hu h.inv.size) v (same.symm.trans at')
  have keptSelfMap : FrameKept w w' (w.ppPfn selfMapPage) :=
    step.kept_page h.inv h.selfMap (by simp only [tablePage, selfMapPage]; omega)
  have tables := h.words.tables
  have pages := step.machine.ramPages
  obtain ⟨-, groups, blocks, hm⟩ := step.machine
  have same : w'.monitor.pgd = w.monitor.pgd ∧ w'.monitor.passagePage = w.monitor.passagePage ∧
      w'.monitor.ioBuffer = w.monitor.ioBuffer := by rw [hm]; exact ⟨rfl, rfl, rfl⟩
  refine ⟨step.inv, by rw [page, directory]; exact h.directory,
    by rw [selfMap]; exact h.selfMap, by rw [page, directory, same.1]; exact h.pgd,
    ⟨fun u hu => ?_, ?_, ?_, ?_, fun k hk => ?_⟩⟩
  · have hu' : u < w.ramPages := pages ▸ hu
    have hu18 := Nat.lt_of_lt_of_le hu' h.inv.size
    rw [page, directory, step.other _ (tablePage_ne_ramPage hv18 u),
      keptDirectory.readWord (by omega)]
    exact tables u hu'
  · rw [page, directory, selfMap, keptDirectory.readWord (by decide)]
    exact h.words.selfMapPgd
  · rw [selfMap, keptSelfMap.readWord (by decide)]
    exact h.words.self
  · rw [selfMap, keptSelfMap.readWord (by decide), same.2.1]
    exact h.words.passage
  · rw [selfMap, keptSelfMap.readWord (by omega), same.2.2]
    exact h.words.io k hk

/-! ## The walk -/

theorem linuxPte_present {pfn : Nat} (h : pfn ≠ 0) (low : pfn < 2 ^ 20) :
    linuxPte pfn % 2 = 1 ∧ linuxPte pfn / 4096 = pfn := by
  rw [linuxPte_of_ne h low]
  omega

/-- A walk whose page directory entry points to a page table. -/
theorem walk_of_pde {cr3 address table : Nat} (h : table ≠ 0) (low : table < 2 ^ 20)
    (pde : w.mem.readWord (cr3 + 4 * (address / coArchPmdSize)) = linuxPte table) :
    w.walk cr3 address =
      let pte := w.mem.readWord (table * 4096 + 4 * (address / coArchPageSize % ptrsPerPte))
      if pte % 2 = 0 then none else some (pte / 4096) := by
  obtain ⟨present, frame⟩ := linuxPte_present h low
  simp [World.walk, pde, frame, present]

theorem walk_of_pte {cr3 address table pfn : Nat} (h : table ≠ 0) (low : table < 2 ^ 20)
    (pde : w.mem.readWord (cr3 + 4 * (address / coArchPmdSize)) = linuxPte table)
    (pte : w.mem.readWord (table * 4096 + 4 * (address / coArchPageSize % ptrsPerPte)) =
      linuxPte pfn) (lowPfn : pfn < 2 ^ 20) :
    w.walk cr3 address = if pfn = 0 then none else some pfn := by
  rw [walk_of_pde h low pde, pte]
  by_cases zero : pfn = 0
  · simp [zero]
  · obtain ⟨present, frame⟩ := linuxPte_present zero lowPfn
    simp [zero, present, frame]

/-- The walk of a RAM address ends in the entry of its page. -/
theorem GuestMapped.walk_ramPage {virtToPhys : Nat → Nat} (h : GuestMapped virtToPhys w)
    (hv : v < w.ramPages) {address : Nat} (page : address / 4096 = ramPage v) :
    w.walk w.monitor.pgd address = if w.pte v % 2 = 0 then none else some (w.pte v / 4096) := by
  have directoryIndex : address / coArchPmdSize = 768 + v / 1024 := by
    simp only [ramPage, coArchPmdSize] at *
    omega
  have tableIndex : address / coArchPageSize % ptrsPerPte = v % 1024 := by
    rw [coArchPageSize, page]
    simp only [ramPage, ptrsPerPte]
    omega
  have pde : w.mem.readWord (w.monitor.pgd + 4 * (address / coArchPmdSize)) =
      linuxPte (w.ppPfn (tablePage v)) := by
    rw [h.pgd, directoryIndex]
    exact h.words.tables v hv
  rw [walk_of_pde (h.inv.tables v hv) (h.inv.frames.low _) pde, tableIndex]
  rfl

/-- A page with a frame resolves to it. -/
theorem GuestMapped.walk_recorded {virtToPhys : Nat → Nat} (h : GuestMapped virtToPhys w)
    (hv : v < w.ramPages) (recorded : w.ppPfn (ramPage v) ≠ 0) {address : Nat}
    (page : address / 4096 = ramPage v) :
    w.walk w.monitor.pgd address = some (w.ppPfn (ramPage v)) := by
  obtain ⟨present, frame⟩ := linuxPte_present recorded (h.inv.frames.low _)
  rw [h.walk_ramPage hv page, (h.inv.virtualFrame v hv).pte recorded, frame, if_neg (by omega)]

/-- A RAM address resolves to the frame recorded for its page. -/
theorem GuestMapped.walk_ram {virtToPhys : Nat → Nat} (h : GuestMapped virtToPhys w)
    (absent : PagesAbsent w) {address : Nat} (lo : coArchKernelOffset ≤ address)
    (hi : address < ramAddress w.ramPages) :
    w.walk w.monitor.pgd address =
      if w.ppPfn (address / 4096) = 0 then none else some (w.ppPfn (address / 4096)) := by
  obtain ⟨v, hv, page⟩ : ∃ v < w.ramPages, address / 4096 = ramPage v := by
    refine ⟨address / 4096 - 0xc0000, ?_, ?_⟩ <;>
      simp only [ramAddress, ramPage, coArchKernelOffset] at * <;> omega
  rw [page]
  by_cases free : w.ppPfn (ramPage v) = 0
  · rw [h.walk_ramPage hv page, if_pos free, if_pos (absent v hv free)]
  · rw [h.walk_recorded hv free page, if_neg free]

/-- An address of the self map's 4 MB resolves to what its entry there points to. -/
theorem GuestMapped.walk_selfMap {virtToPhys : Nat → Nat} (h : GuestMapped virtToPhys w)
    {address i pfn : Nat} (directoryIndex : address / coArchPmdSize = 1018)
    (tableIndex : address / coArchPageSize % ptrsPerPte = i)
    (word : w.mem.readWord (w.ppPfn selfMapPage * 4096 + 4 * i) = linuxPte pfn) (ne : pfn ≠ 0)
    (low : pfn < 2 ^ 20) : w.walk w.monitor.pgd address = some pfn := by
  have pde : w.mem.readWord (w.monitor.pgd + 4 * (address / coArchPmdSize)) =
      linuxPte (w.ppPfn selfMapPage) := by
    rw [h.pgd, directoryIndex]
    exact h.words.selfMapPgd
  rw [walk_of_pte h.selfMap (h.inv.frames.low _) pde (tableIndex ▸ word) low, if_neg ne]

end CoLinux
