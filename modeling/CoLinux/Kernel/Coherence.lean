import CoLinux.Kernel.Proofs.RamMapping
import CoLinux.Kernel.Proofs.RamStep
import CoLinux.Lib.Run

/-!
# Page mapping coherence

Runs of the three operations that change pseudo physical RAM, from the state
`alloc_pp_ram_mapping` leaves. The recorded frames, the page table entries in the guest's own
memory and the reversed map agree after every call exactly when the page tables start out clear:
`alloc_pp_ram_mapping` takes its pages as the host gives them. Every frame the host hands out is
covered by the reversed map, because `hostmem_pages` is a multiple of 16 MB.
-/

namespace CoLinux

open Lib

/-- A call that changes pseudo physical RAM. -/
inductive PageOp where
  | allocAndMap (address : Nat)
  | freeAndUnmap (address : Nat)
  | copyRegion (address size : Nat) (data : Option (Nat → UInt8))

def PageOp.call : PageOp → World → Step World
  | .allocAndMap address, w => coMonitorAllocAndMapPage address w
  | .freeAndUnmap address, w => coMonitorFreeAndUnmapPage address w
  | .copyRegion address size data, w => coMonitorCopyRegion address size data w

def PageOp.step (op : PageOp) (w : World) : World := (op.call w).2

/-- The call is about guest addresses from `CO_ARCH_KERNEL_OFFSET` up to `endPhysical`. -/
def PageOp.InRam (endPhysical : Nat) : PageOp → Prop
  | .allocAndMap a | .freeAndUnmap a => a % 4096 = 0 ∧ coArchKernelOffset ≤ a ∧ a < endPhysical
  | .copyRegion a size _ => coArchKernelOffset ≤ a ∧ a + size ≤ endPhysical

/-- What a call that returns OK leaves: its pages recorded, or no frame recorded for the page
it freed. -/
def PageOp.Done (w : World) : PageOp → Prop
  | .allocAndMap a => w.ppPfn (a / 4096) ≠ 0
  | .freeAndUnmap a => w.ppPfn (a / 4096) = 0
  | .copyRegion a size _ => ∀ x, a ≤ x → x < a + size → w.ppPfn (x / 4096) ≠ 0

/-- The word at a guest virtual address, read through `pp_pfns`. -/
def World.guestWord (w : World) (address : Nat) : Nat :=
  w.mem.readWord (w.ppPfn (address / 4096) * 4096 + address % 4096)

/-- The page at `a` is mapped to the frame recorded for it, and that frame back to the page,
exactly when a frame is recorded; otherwise its page table entry is 0. -/
def CoherentAt (w : World) (a : Nat) : Prop :=
  (w.ppPfn (a / 4096) ≠ 0 ↔
    w.guestWord (coVptrPseudoRamPageTables + 4 * ((a - coArchKernelOffset) / 4096)) =
      w.ppPfn (a / 4096) <<< 12 ||| kernpgTable ∧
    w.reversed (w.ppPfn (a / 4096)) = (a - coArchKernelOffset) / 4096) ∧
  (w.ppPfn (a / 4096) = 0 ↔
    w.guestWord (coVptrPseudoRamPageTables + 4 * ((a - coArchKernelOffset) / 4096)) = 0)

def Coherent (w : World) : Prop :=
  ∀ a, a % 4096 = 0 → coArchKernelOffset ≤ a → a < w.monitor.endPhysical → CoherentAt w a

/-! ## The invariant gives coherence -/

theorem guestWord_pte (w : World) (v : Nat) :
    w.guestWord (coVptrPseudoRamPageTables + 4 * v) = w.pte v := by
  have page : (coVptrPseudoRamPageTables + 4 * v) / 4096 = tablePage v := by
    simp only [coVptrPseudoRamPageTables, coVptrBase, tablePage]
    omega
  have offset : (coVptrPseudoRamPageTables + 4 * v) % 4096 = 4 * (v % 1024) := by
    simp only [coVptrPseudoRamPageTables, coVptrBase]
    omega
  rw [World.guestWord, page, offset]
  rfl

/-- A page address of RAM is the address of a virtual frame. -/
theorem ramAddress_of_page {w : World} {a : Nat}
    (range : w.monitor.endPhysical = coArchKernelOffset + w.monitor.memorySize)
    (whole : w.monitor.memorySize % 4096 = 0) (ha : a % 4096 = 0)
    (low : coArchKernelOffset ≤ a) (high : a < w.monitor.endPhysical) :
    ∃ v, v < w.ramPages ∧ a = ramAddress v := by
  refine ⟨(a - coArchKernelOffset) / 4096, ?_, ?_⟩ <;>
    simp only [World.ramPages, ramAddress, coArchKernelOffset] at * <;> omega

theorem PagesInv.coherentAt {w : World} (inv : PagesInv w) (clear : PagesClear w) {v : Nat}
    (hv : v < w.ramPages) : CoherentAt w (ramAddress v) := by
  have page : ramAddress v / 4096 = ramPage v := ramAddress_page v
  have virtual : (ramAddress v - coArchKernelOffset) / 4096 = v := by
    simp only [ramAddress, coArchKernelOffset]
    omega
  obtain ⟨pte, -, reversed⟩ := inv.virtualFrame v hv
  have low := inv.frames.low (ramPage v)
  unfold CoherentAt
  rw [page, virtual, guestWord_pte]
  by_cases free : w.ppPfn (ramPage v) = 0
  · rw [clear v hv free, free]
    simp [kernpgTable]
  · have entry : linuxPte (w.ppPfn (ramPage v)) = w.ppPfn (ramPage v) <<< 12 ||| kernpgTable := by
      rw [linuxPte, if_neg free, Nat.mod_eq_of_lt]
      rw [Nat.shiftLeft_eq]
      simp only [wordSize, coArchPageShift]
      omega
    have positive : linuxPte (w.ppPfn (ramPage v)) ≠ 0 := by
      rw [linuxPte_of_ne free low]
      omega
    rw [pte free]
    exact ⟨⟨fun _ => ⟨entry, reversed free⟩, fun _ => free⟩,
      fun h => absurd h free, fun h => absurd h positive⟩

/-! ## Runs -/

/-- One call keeps the invariant and, when it returns OK, leaves what it is for. -/
theorem PageOp.step_inv {w : World} {op : PageOp}
    (range : w.monitor.endPhysical = coArchKernelOffset + w.monitor.memorySize)
    (whole : w.monitor.memorySize % 4096 = 0) (inv : PagesInv w)
    (inRam : op.InRam w.monitor.endPhysical) :
    PagesInv (op.step w) ∧ KeepsFree w (op.step w) ∧ SameMachine w (op.step w) ∧
      ((op.call w).1 = .ok → op.Done (op.step w)) := by
  cases op with
  | allocAndMap a =>
    obtain ⟨v, hv, rfl⟩ := ramAddress_of_page range whole inRam.1 inRam.2.1 inRam.2.2
    obtain ⟨step, outcome⟩ := coMonitorAllocAndMapPage_step inv hv
    refine ⟨step.inv, coMonitorAllocAndMapPage_keepsFree inv hv, step.machine, fun ok => ?_⟩
    rw [PageOp.Done, ← coArchPageSize, ramAddress_page]
    rcases outcome with ⟨failed, -⟩ | ⟨-, was, now, -⟩ | ⟨-, -, now⟩
    · exact absurd ok failed
    · exact fun free => was (now.symm.trans free)
    · exact (mem_freeFrames.mp now).2.1
  | freeAndUnmap a =>
    obtain ⟨v, hv, rfl⟩ := ramAddress_of_page range whole inRam.1 inRam.2.1 inRam.2.2
    obtain ⟨step, done, -, -⟩ := coMonitorFreeAndUnmapPage_step inv hv
    refine ⟨step.inv, coMonitorFreeAndUnmapPage_keepsFree inv hv, step.machine, fun _ => ?_⟩
    rw [PageOp.Done, ← coArchPageSize, ramAddress_page]
    exact done
  | copyRegion a size data =>
    have top : a + size ≤ ramAddress w.ramPages := by
      have := inRam.2
      simp only [ramAddress, World.ramPages, coArchKernelOffset] at *
      omega
    obtain ⟨inv', machine, free, done⟩ := coMonitorCopyRegion_inv data inv inRam.1 top
    exact ⟨inv', free, machine, done⟩

/-- The RAM of a monitor is a whole number of pages above `CO_ARCH_KERNEL_OFFSET`. -/
structure RamRange (w : World) : Prop where
  range : w.monitor.endPhysical = coArchKernelOffset + w.monitor.memorySize
  whole : w.monitor.memorySize % 4096 = 0

theorem SameMachine.ramRange {w w' : World} (h : SameMachine w w') (r : RamRange w) :
    RamRange w' := by
  obtain ⟨-, groups, blocks, hm⟩ := h
  exact ⟨by rw [hm]; exact r.range, by rw [hm]; exact r.whole⟩

theorem RamMapped.ramRange {w0 w : World} {mb : Nat} (h : RamMapped w0 w)
    (size : w0.monitor.memorySize = adjustedMemorySize mb)
    (range : w0.monitor.endPhysical = coArchKernelOffset + w0.monitor.memorySize) :
    RamRange w := by
  obtain ⟨_, _, _, layout⟩ := h.monitor
  obtain ⟨n, -, -, hn⟩ := adjustedMemorySize_cases mb
  refine ⟨by rw [layout, range], ?_⟩
  rw [layout, size, hn]
  omega

/-- Every run of calls on RAM addresses keeps the invariant. -/
theorem run_pagesInv {w : World} (ram : RamRange w) (inv : PagesInv w) {ops : List PageOp}
    (inRam : ∀ op ∈ ops, op.InRam w.monitor.endPhysical) :
    PagesInv (run PageOp.step ops w) ∧ KeepsFree w (run PageOp.step ops w) ∧
      SameMachine w (run PageOp.step ops w) := by
  refine @run_invariant _ _ PageOp.step (fun _ op => op.InRam w.monitor.endPhysical)
    (fun s => PagesInv s ∧ KeepsFree w s ∧ SameMachine w s) ?_ ops w
    ⟨inv, .refl w, .refl w⟩ (runOk_of_forall inRam)
  rintro s op ⟨inv, free, machine⟩ inRam
  have ram' := machine.ramRange ram
  obtain ⟨inv', free', machine', -⟩ := PageOp.step_inv ram'.range ram'.whole inv
    (by rw [machine.endPhysical]; exact inRam)
  exact ⟨inv', free.trans free', machine.trans machine'⟩

/-- After every call on RAM addresses the three structures are coherent, and a call that returns OK
has done what it is for. -/
def StaysCoherent (w : World) : Prop :=
  ∀ (ops : List PageOp) (op : PageOp), (∀ o ∈ ops, o.InRam w.monitor.endPhysical) →
    op.InRam w.monitor.endPhysical →
    Coherent (op.step (run PageOp.step ops w)) ∧
      ((op.call (run PageOp.step ops w)).1 = .ok → op.Done (op.step (run PageOp.step ops w)))

/-- From the state `alloc_pp_ram_mapping` leaves, every sequence of calls keeps the three structures
coherent exactly when the page tables are clear in that state. -/
theorem pages_coherent_iff {w0 w : World} {mb n : Nat} (loaded : ManagerLoaded w0)
    (hostmem : w0.manager.hostmemPages = coOsPhysicalMemoryPages n)
    (size : w0.monitor.memorySize = adjustedMemorySize mb)
    (range : w0.monitor.endPhysical = coArchKernelOffset + w0.monitor.memorySize)
    (init : allocPpRamMapping w0 = (.ok, w)) :
    StaysCoherent w ↔ ∀ v < w.ramPages, w.pte v = 0 := by
  have mapped := allocPpRamMapping_ok loaded size init
  have ram := mapped.ramRange size range
  have inv := mapped.inv (mapped.covered hostmem)
  constructor
  · intro stays v hv
    -- a copy of no bytes leaves the state alone
    have inRam : PageOp.InRam w.monitor.endPhysical (.copyRegion coArchKernelOffset 0 none) := by
      refine ⟨Nat.le_refl _, ?_⟩
      rw [ram.range]
      exact Nat.le_add_right _ _
    have coherent : Coherent w :=
      (stays [] (.copyRegion coArchKernelOffset 0 none) (by simp) inRam).1
    have page : ramAddress v / 4096 = ramPage v := ramAddress_page v
    have virtual : (ramAddress v - coArchKernelOffset) / 4096 = v := by
      simp only [ramAddress, coArchKernelOffset]
      omega
    have above : ramAddress v < w.monitor.endPhysical := by
      have whole := ram.whole
      rw [ram.range]
      simp only [ramAddress, World.ramPages, coArchKernelOffset] at *
      omega
    have absent := (coherent (ramAddress v) (by simp only [ramAddress, coArchKernelOffset]; omega)
      (by simp only [ramAddress, coArchKernelOffset]; omega) above).2
    rw [page, virtual, guestWord_pte] at absent
    exact absent.mp (mapped.free hv)
  · intro clear ops op inRam opInRam
    obtain ⟨inv', free, machine⟩ := run_pagesInv ram inv inRam
    have ram' := machine.ramRange ram
    obtain ⟨after, free', machine', done⟩ := PageOp.step_inv ram'.range ram'.whole inv'
      (by rw [machine.endPhysical]; exact opInRam)
    have ram'' := machine'.ramRange ram'
    refine ⟨?_, done⟩
    intro a ha lo hi
    obtain ⟨v, hv, rfl⟩ := ramAddress_of_page ram''.range ram''.whole ha lo hi
    exact after.coherentAt ((free.trans free') rfl fun v hv _ => clear v hv) hv

/-! ## Two hosts -/

/-- A manager on a host with `hostmemPages` pages, with the pages `pfns` for its reversed map,
and an 8 MB monitor. All of memory is clear and the host grants every request. -/
def smallHost (hostmemPages : Nat) (pfns : List Nat) (answers : List (Option Nat)) : World where
  mem := fun _ => 0
  host := { out := pfns, answers := answers, mallocs := List.replicate 4 true }
  manager :=
    { hostmemPages := hostmemPages
      reversedMapPfns := fun i => pfns.getD i 0
      reversedPageCount := hostmemPages / ptrsPerPte
      reversedMapPgds := fun _ => 0
      reversedMapPgdsCount := reversedMapPgdsCount }
  monitor :=
    { memorySize := adjustedMemorySize 8
      endPhysical := coArchKernelOffset + adjustedMemorySize 8
      hasPpPfns := false
      ppPfns := fun _ => none
      blocksAllocated := 0
      kernelSwapperPgDir := coArchKernelOffset
      ioBuffer := 0x80000000
      passagePage := 0x80010000
      pgd := 0 }

/-- A host of 32 MB whose reversed map has the first frames above 16 MB. -/
def mappedHost (answers : List (Option Nat)) : World :=
  smallHost 8192 (List.range' 4096 8) answers

theorem mappedHost_loaded (answers : List (Option Nat)) : ManagerLoaded (mappedHost answers) := by
  have loaded : ManagerLoaded (mappedHost []) :=
    ⟨by decide, by decide, by decide, by decide, by decide, by decide⟩
  exact ⟨loaded.hostmem, loaded.count, loaded.present, loaded.out, loaded.distinct, loaded.pgds⟩

theorem mappedHost_hostmem (answers : List (Option Nat)) :
    (mappedHost answers).manager.hostmemPages = coOsPhysicalMemoryPages 8100 := by
  show (mappedHost []).manager.hostmemPages = _
  decide

theorem mappedHost_size (answers : List (Option Nat)) :
    (mappedHost answers).monitor.memorySize = adjustedMemorySize 8 := rfl

theorem mappedHost_mapped {answers : List (Option Nat)}
    (ok : (allocPpRamMapping (mappedHost answers)).1 = .ok) :
    RamMapped (mappedHost answers) (allocPpRamMapping (mappedHost answers)).2 :=
  allocPpRamMapping_ok (mappedHost_loaded answers) (mappedHost_size answers) (Step.eq_of_ok ok)

def coveredHost : World := mappedHost [some 4110, some 4111, some 4112]

theorem coveredHost_loaded : ManagerLoaded coveredHost := mappedHost_loaded _

theorem coveredHost_hostmem :
    coveredHost.manager.hostmemPages = coOsPhysicalMemoryPages 8100 := mappedHost_hostmem _

theorem coveredHost_size : coveredHost.monitor.memorySize = adjustedMemorySize 8 := rfl

theorem coveredHost_ok : (allocPpRamMapping coveredHost).1 = .ok := by decide +kernel

theorem coveredHost_mapped : RamMapped coveredHost (allocPpRamMapping coveredHost).2 :=
  mappedHost_mapped coveredHost_ok

theorem coveredHost_covered : (allocPpRamMapping coveredHost).2.Covered :=
  coveredHost_mapped.covered coveredHost_hostmem

theorem coveredHost_inRam : PageOp.InRam (allocPpRamMapping coveredHost).2.monitor.endPhysical
    (.allocAndMap 0xc0000000) := by
  obtain ⟨_, _, _, layout⟩ := coveredHost_mapped.monitor
  rw [layout]
  exact ⟨by decide, by decide, show 0xc0000000 < coveredHost.monitor.endPhysical by decide⟩

theorem staysCoherent_coveredHost : StaysCoherent (allocPpRamMapping coveredHost).2 := by
  refine (pages_coherent_iff coveredHost_loaded coveredHost_hostmem coveredHost_size rfl
    (Step.eq_of_ok coveredHost_ok)).mpr fun v _ => ?_
  rw [World.pte, coveredHost_mapped.mem]
  rfl

/-- The host with a frame for the page tables that was a page table before: it still has an entry. -/
def staleHost : World :=
  coveredHost.setMem (ByteMem.writeWord (fun _ => 0) (4110 * 4096 + 4) 0x5000063)

/-- There the second page of RAM has no frame and a page table entry, whatever else is mapped. -/
theorem staleHost_incoherent :
    ManagerLoaded staleHost ∧ staleHost.manager.hostmemPages = coOsPhysicalMemoryPages 8100 ∧
    (allocPpRamMapping staleHost).1 = .ok ∧
    (PageOp.call (.allocAndMap 0xc0000000) (allocPpRamMapping staleHost).2).1 = .ok ∧
    (PageOp.step (.allocAndMap 0xc0000000) (allocPpRamMapping staleHost).2).ppPfn 0xc0001 = 0 ∧
    (PageOp.step (.allocAndMap 0xc0000000) (allocPpRamMapping staleHost).2).pte 1 = 0x5000063 ∧
    ¬ Coherent (PageOp.step (.allocAndMap 0xc0000000) (allocPpRamMapping staleHost).2) := by
  have unrecorded : (PageOp.step (.allocAndMap 0xc0000000)
      (allocPpRamMapping staleHost).2).ppPfn 0xc0001 = 0 := by decide +kernel
  have entry : (PageOp.step (.allocAndMap 0xc0000000)
      (allocPpRamMapping staleHost).2).pte 1 = 0x5000063 := by decide +kernel
  refine ⟨⟨by decide, by decide, by decide, by decide, by decide, by decide⟩, by decide,
    by decide +kernel, by decide +kernel, unrecorded, entry, fun coherent => ?_⟩
  have absent := (coherent 0xc0001000 (by decide) (by decide) (by decide +kernel)).2.mp unrecorded
  rw [show (0xc0001000 - coArchKernelOffset) / 4096 = 1 by decide, guestWord_pte, entry] at absent
  exact absurd absent (by decide)

end CoLinux
