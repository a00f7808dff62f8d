import CoLinux.Kernel.Coherence
import CoLinux.Kernel.Proofs.AllocPages
import CoLinux.Kernel.Proofs.GuestInit

/-!
# The guest sees the memory the driver recorded

After a successful `guest_address_space_init` the processor's walk resolves RAM addresses to the
recorded frames, the passage page and the IO area to the host's pages and the self map to
itself, and requests for RAM pages keep it so.
-/

namespace CoLinux

open Lib

variable {w w' : World}

/-! ## The init function -/

/-- The two calls for the passage page write to host pages of their own and set `passage_page`. -/
structure PassageSetUp (w w' : World) : Prop where
  manager : w'.manager = w.manager
  monitor : ∃ page, w'.monitor = { w.monitor with passagePage := page }
  out : ∀ q ∈ w.host.out, q ∈ w'.host.out
  answers : w'.host.answers = w.host.answers
  kept : ∀ q ∈ w.host.out, FrameKept w w' q

theorem coOsMalloc_passageSetUp (w : World) : PassageSetUp w (coOsMalloc w).2 := by
  unfold coOsMalloc
  cases w.host.mallocs with
  | nil => exact ⟨rfl, ⟨_, rfl⟩, fun _ h => h, rfl, fun _ _ _ _ => rfl⟩
  | cons granted rest => exact ⟨rfl, ⟨_, rfl⟩, fun _ h => h, rfl, fun _ _ _ _ => rfl⟩

theorem PassageSetUp.setPassagePage (h : PassageSetUp w w') (address : Nat) :
    PassageSetUp w (w'.setPassagePage address) := by
  obtain ⟨page, monitor⟩ := h.monitor
  refine ⟨h.manager, ⟨address, ?_⟩, h.out, h.answers, h.kept⟩
  rw [World.setPassagePage, monitor]

/-- Stores into frames that are not out yet. -/
theorem PassageSetUp.setMem (h : PassageSetUp w w') {mem : ByteMem}
    (outside : ∀ q ∈ w.host.out, ∀ i < 4096, mem (q * 4096 + i) = w'.mem (q * 4096 + i)) :
    PassageSetUp w (w'.setMem mem) :=
  ⟨h.manager, h.monitor, h.out, h.answers,
    fun q out i hi => (outside q out i hi).trans (h.kept q out i hi)⟩

theorem PassageSetUp.takeFrames (h : PassageSetUp w w') (frames : List Nat) :
    PassageSetUp w (w'.setHost { w'.host with out := frames ++ w'.host.out }) :=
  ⟨h.manager, h.monitor, fun q out => List.mem_append_right _ (h.out q out), h.answers, h.kept⟩

variable {virtToPhys : Nat → Nat} (host : PassageHost virtToPhys)

/-- The block that `co_monitor_arch_passage_page_alloc` gets is of frames that were not out. -/
theorem coMonitorArchPassagePageAlloc_setUp (w : World) :
    PassageSetUp w (coMonitorArchPassagePageAlloc host w).2 ∧
      ∀ block, (coMonitorArchPassagePageAlloc host w).1 = .ok block →
        ∀ f ∈ block.page.frames, f ∉ w.host.out := by
  have malloc := coOsMalloc_passageSetUp w
  unfold coMonitorArchPassagePageAlloc
  generalize coOsMalloc w = r at malloc ⊢
  obtain ⟨granted, w'⟩ := r
  dsimp only at malloc ⊢
  cases granted with
  | false => exact ⟨malloc, fun _ failed => by cases failed⟩
  | true =>
    rw [if_neg (by decide)]
    cases host.block with
    | none => exact ⟨malloc.setPassagePage 0, fun _ failed => by cases failed⟩
    | some block =>
      dsimp only
      by_cases taken : ∃ f ∈ block.page.frames, f ∈ w'.host.out
      · rw [if_pos taken]
        exact ⟨malloc.setPassagePage 0, fun _ failed => by cases failed⟩
      · rw [if_neg taken]
        have fresh : ∀ f ∈ block.page.frames, f ∉ w.host.out :=
          fun f mem out => taken ⟨f, mem, malloc.out f out⟩
        have outside : ∀ q ∈ w.host.out, ∀ i < 4096,
            clearFrames block.page.frames w'.mem (q * 4096 + i) = w'.mem (q * 4096 + i) :=
          fun q out i hi => clearFrames_outside (fun mem => fresh q mem out) hi
        by_cases nx : host.antiNx = .ok
        · rw [if_pos nx]
          refine ⟨((malloc.takeFrames _).setMem outside).setPassagePage _, fun b ok => ?_⟩
          cases ok
          exact fresh
        · rw [if_neg nx]
          exact ⟨(malloc.setMem outside).setPassagePage 0, fun _ failed => by cases failed⟩

theorem setUpPassagePage_setUp (w : World) : PassageSetUp w (setUpPassagePage host w).2 := by
  obtain ⟨alloc, fresh⟩ := coMonitorArchPassagePageAlloc_setUp host w
  unfold setUpPassagePage
  generalize coMonitorArchPassagePageAlloc host w = r at alloc fresh ⊢
  obtain ⟨result, w'⟩ := r
  cases result with
  | error rc => exact alloc
  | ok block =>
    dsimp only at alloc fresh ⊢
    unfold fillPassagePage
    split
    · exact alloc
    · refine alloc.setMem fun q out i hi => ?_
      have own : q ∉ block.page.frames := fun mem => fresh block rfl q mem out
      simp only [PassagePage.frames, List.mem_append, List.mem_cons, not_or] at own
      rw [storeTables_outside own.2 hi, storeTables_outside own.1.2 hi]
      refine w'.mem.copyBytes_outside _ ?_
      have ne := own.1.1
      simp only [coArchPageSize]
      omega

/-- The page of `swapper_pg_dir` is a page of RAM that was loaded. -/
structure SwapperLoaded (w : World) : Prop where
  aligned : w.monitor.kernelSwapperPgDir % 4096 = 0
  inRam : ∃ u < w.ramPages, w.swapperPage = ramPage u
  loaded : w.ppPfn w.swapperPage ≠ 0

theorem SwapperLoaded.low (swapper : SwapperLoaded w) (inv : PagesInv w) :
    w.swapperPage < 2 ^ 20 := by
  obtain ⟨u, hu, page⟩ := swapper.inRam
  have hu18 := Nat.lt_of_lt_of_le hu inv.size
  rw [page, ramPage]
  omega

theorem SwapperLoaded.ne_selfMapPage (swapper : SwapperLoaded w) (inv : PagesInv w) :
    w.swapperPage ≠ selfMapPage := by
  obtain ⟨u, hu, page⟩ := swapper.inRam
  have hu18 := Nat.lt_of_lt_of_le hu inv.size
  rw [page]
  simp only [ramPage, selfMapPage]
  omega

theorem SwapperLoaded.address_eq (swapper : SwapperLoaded w) :
    w.monitor.kernelSwapperPgDir = w.swapperPage * 4096 := by
  have whole := swapper.aligned
  simp only [World.swapperPage]
  omega

/-- The directory's entries for RAM are the frames of its page tables. -/
theorem ppPagetablesPfns_tablePage (w : World) (v : Nat) :
    ppPagetablesPfns w (768 + v / 1024) = w.ppPfn (tablePage v) := by
  unfold ppPagetablesPfns tablePage
  congr 1
  simp only [coVptrPseudoRamPageTables, coVptrBase, coArchPmdSize, ptrsPerPte]
  omega

theorem initPageTables_mapped {virtToPhys : Nat → Nat} (inv : PagesInv w)
    (swapper : SwapperLoaded w) (pgd : w.monitor.pgd = w.ppPfn w.swapperPage * 4096)
    (phys : ∀ a, virtToPhys a / 4096 < 2 ^ 20) (ok : (initPageTables virtToPhys w).1 = .ok) :
    GuestMapped virtToPhys (initPageTables virtToPhys w).2 ∧
      SameMachine w (initPageTables virtToPhys w).2 ∧ SameRam w (initPageTables virtToPhys w).2 := by
  obtain ⟨u, hu, page⟩ := swapper.inRam
  have hu18 := Nat.lt_of_lt_of_le hu inv.size
  have notSelfMap := swapper.ne_selfMapPage inv
  obtain ⟨m, w3, recorded, result⟩ := initPageTables_eq (inv.loaded.pgds.trans rfl)
    swapper.address_eq (swapper.low inv) swapper.loaded ok
  have recorded' := recorded.of_setMem
  have notRam : ∀ v < w.ramPages, ramPage v ≠ selfMapPage := fun v hv => by
    have := Nat.lt_of_lt_of_le hv inv.size
    simp only [ramPage, selfMapPage]
    omega
  have notTable : ∀ v, tablePage v ≠ selfMapPage := fun v => by
    simp only [tablePage, selfMapPage]
    omega
  obtain ⟨inv3, -⟩ := recorded'.pagesInv inv notRam
  have machine := recorded'.sameMachine
  have selfMap : w3.ppPfn selfMapPage ≠ 0 := recorded.ppPfn_ne
  have other : ∀ n, n ≠ selfMapPage → w3.ppPfn n = w.ppPfn n := fun n hn =>
    recorded.kept (.inr hn)
  have directory : w3.ppPfn w.swapperPage ≠ 0 := by
    rw [other _ notSelfMap]
    exact swapper.loaded
  -- the frames of the directory and of the self map hold nothing else
  have apart : ∀ n k, w3.ppPfn n ≠ 0 → n ≠ k → w3.ppPfn n ≠ w3.ppPfn k :=
    fun n k hn ne same => ne (inv3.frames.distinct n k hn same)
  have word : ∀ q k, w3.ppPfn w.swapperPage ≠ q → w3.ppPfn selfMapPage ≠ q → k < 1024 →
      (initStores virtToPhys w (ppPagetablesPfns w) (ppPagetablesPfns w3)
        (w.ppPfn w.swapperPage) (w3.ppPfn selfMapPage)).readWord (q * 4096 + 4 * k) =
          w.mem.readWord (q * 4096 + 4 * k) := fun q k hg hs hk =>
    initStores_other (by rwa [← other _ notSelfMap]) hs hk
  have pte : ∀ v < w.ramPages, (initStores virtToPhys w (ppPagetablesPfns w)
      (ppPagetablesPfns w3) (w.ppPfn w.swapperPage) (w3.ppPfn selfMapPage)).readWord
        ((w3.setMem w.mem).pteSlot v) = (w3.setMem w.mem).pte v := fun v _ => by
    refine word _ _ (apart _ _ directory ?_) (apart _ _ selfMap (notTable v).symm)
      (Nat.mod_lt _ (by decide))
    rw [page]
    exact (tablePage_ne_ramPage hu18 v).symm
  have inv' := inv3.setMem (fun v hv => pte v (machine.ramPages ▸ hv)) fun p cov =>
    word _ _ (inv3.frames.notReversed _ directory _ cov).symm
      (inv3.frames.notReversed _ selfMap _ cov).symm (Nat.mod_lt _ (by decide))
  rw [setMem_setMem, ← result] at inv'
  have final : ∀ n, (initPageTables virtToPhys w).2.ppPfn n = w3.ppPfn n := fun n => by
    rw [result, ppPfn_setMem]
  have machine' : SameMachine w (initPageTables virtToPhys w).2 := by
    rw [result]
    exact ⟨machine.manager, machine.monitor⟩
  have layout : (initPageTables virtToPhys w).2.monitor.pgd = w.monitor.pgd ∧
      (initPageTables virtToPhys w).2.monitor.passagePage = w.monitor.passagePage ∧
      (initPageTables virtToPhys w).2.monitor.ioBuffer = w.monitor.ioBuffer := by
    obtain ⟨-, groups, blocks, hm⟩ := machine'
    rw [hm]
    exact ⟨rfl, rfl, rfl⟩
  have memory := congrArg World.mem result
  rw [setMem_mem] at memory
  have selfMapApart := apart _ _ selfMap notSelfMap.symm
  have low3 := inv3.frames.low selfMapPage
  rw [other _ notSelfMap] at selfMapApart
  have sameRam : SameRam w (initPageTables virtToPhys w).2 := by
    refine ⟨fun v hv => ?_, fun v hv => ?_⟩
    · rw [final]
      exact other _ (notRam v hv)
    · have entry := pte v hv
      have slot : w3.ppPfn (tablePage v) = w.ppPfn (tablePage v) := other _ (notTable v)
      rw [World.pte, World.pteSlot, final, memory]
      refine entry.trans ?_
      rw [World.pte, World.pteSlot, ppPfn_setMem, slot, setMem_mem]
      rfl
  refine ⟨⟨inv', ?_, ?_, ?_, ⟨fun v hv => ?_, ?_, ?_, ?_, fun k hk => ?_⟩⟩, machine', sameRam⟩
  · rw [machine'.swapperPage, final]
    exact directory
  · rw [final]
    exact selfMap
  · rw [layout.1, pgd, machine'.swapperPage, final, other _ notSelfMap]
  · rw [machine'.ramPages] at hv
    have index := ppPagetablesPfns_tablePage w v
    have hv18 := Nat.lt_of_lt_of_le hv inv.size
    rw [machine'.swapperPage, final, final, other _ notSelfMap, other _ (notTable v), memory,
      initStores_directory selfMapApart (by omega) (by rw [index]; exact inv.frames.low _), index]
  · rw [machine'.swapperPage, final, final, other _ notSelfMap, memory]
    exact initStores_selfMapPgd selfMapApart low3
  · rw [final, memory]
    exact initStores_self low3
  · rw [final, memory, layout.2.1]
    exact initStores_passage (phys _)
  · rw [final, memory, layout.2.2]
    exact initStores_io hk (phys _)

/-- The two calls for the passage page leave RAM alone. -/
theorem PassageSetUp.sameRam (h : PassageSetUp w w') (inv : PagesInv w) : SameRam w w' := by
  obtain ⟨page, monitor⟩ := h.monitor
  have same : ∀ n, w'.ppPfn n = w.ppPfn n := fun n => by
    rw [World.ppPfn, monitor]
    rfl
  refine ⟨fun v _ => same _, fun v hv => ?_⟩
  have table := h.kept _ (inv.frames.out _ (inv.tables v hv))
  rw [World.pte, World.pteSlot, same, table.readWord (Nat.mod_lt _ (by decide))]
  rfl

/-- A successful init function leaves the guest's address space mapped, and RAM as it was. -/
theorem guestAddressSpaceInit_mapped {virtToPhys : Nat → Nat} {host : PassageHost virtToPhys}
    (inv : PagesInv w) (swapper : SwapperLoaded w) (phys : ∀ a, virtToPhys a / 4096 < 2 ^ 20)
    (ok : guestAddressSpaceInit (setUpPassagePage host) virtToPhys w = (.ok, w')) :
    GuestMapped virtToPhys w' ∧ SwapperLoaded w' ∧ SameRam w w' ∧
      w'.monitor.memorySize = w.monitor.memorySize ∧
      w'.monitor.endPhysical = w.monitor.endPhysical := by
  have page : w.monitor.kernelSwapperPgDir / coArchPageSize = w.swapperPage := rfl
  have get : coMonitorGetPfn w.monitor.kernelSwapperPgDir w = .ok (w.ppPfn w.swapperPage) := by
    rw [coMonitorGetPfn, page, if_neg]
    rw [Bool.not_eq_true, Option.isNone_eq_false_iff]
    exact ppPfn_group swapper.loaded
  have pgd : w.ppPfn w.swapperPage <<< coArchPageShift % wordSize =
      w.ppPfn w.swapperPage * 4096 := by
    have low := inv.frames.low w.swapperPage
    rw [Nat.shiftLeft_eq]
    simp only [wordSize, coArchPageShift]
    omega
  unfold guestAddressSpaceInit at ok
  rw [get] at ok
  dsimp only at ok
  rw [pgd] at ok
  have calls_ok : (setUpPassagePage host (w.setPgd (w.ppPfn w.swapperPage * 4096))).1 = .ok := by
    refine Classical.byContradiction fun failed => ?_
    rw [Step.andThen_of_ne failed] at ok
    exact failed (by rw [ok])
  rw [Step.andThen_of_ok calls_ok] at ok
  have setUp := setUpPassagePage_setUp host (w.setPgd (w.ppPfn w.swapperPage * 4096))
  generalize (setUpPassagePage host (w.setPgd (w.ppPfn w.swapperPage * 4096))).2 = w1 at *
  have setPgd : PagesInv (w.setPgd (w.ppPfn w.swapperPage * 4096)) ∧
      KeepsFree w (w.setPgd (w.ppPfn w.swapperPage * 4096)) :=
    inv.transport rfl rfl rfl (fun _ h => h) (fun _ h => h) fun _ _ _ _ => rfl
  have sameRam1 := setUp.sameRam setPgd.1
  obtain ⟨manager, ⟨passagePage, monitor⟩, out, answers, kept⟩ := setUp
  have samePfns : w1.ppPfn = w.ppPfn := by
    funext n
    rw [World.ppPfn, monitor]
    rfl
  obtain ⟨inv1, -⟩ := inv.transport manager samePfns (by rw [monitor]; rfl) out
    (fun a mem => answers ▸ mem) kept
  have samePage : w1.swapperPage = w.swapperPage := by
    rw [World.swapperPage, monitor]
    rfl
  have samePages : w1.ramPages = w.ramPages := by
    rw [World.ramPages, monitor]
    rfl
  have swapper1 : SwapperLoaded w1 := by
    refine ⟨by rw [monitor]; exact swapper.aligned, ?_, by rw [samePage, samePfns]; exact swapper.loaded⟩
    rw [samePage, samePages]
    exact swapper.inRam
  have present : (w1.monitor.ppPfns (coVptrPseudoRamPageTables / coArchPmdSize)).isNone = false := by
    obtain ⟨u, hu, -⟩ := swapper1.inRam
    have group := ppPfn_group (inv1.tables u hu)
    have hu18 := Nat.lt_of_lt_of_le hu inv1.size
    rw [show tablePage u / ptrsPerPte = coVptrPseudoRamPageTables / coArchPmdSize by
      simp only [tablePage, ptrsPerPte, coVptrPseudoRamPageTables, coVptrBase, coArchPmdSize]
      omega] at group
    rw [Option.isNone_eq_false_iff]
    exact group
  rw [present] at ok
  simp only [Bool.false_eq_true, if_false] at ok
  obtain ⟨mapped, machine, sameRam2⟩ := initPageTables_mapped inv1 swapper1
    (by rw [samePage, samePfns, monitor]; rfl) phys (by rw [ok])
  rw [ok] at mapped machine sameRam2
  dsimp only at mapped machine sameRam2
  have sameRam : SameRam w w' := by
    refine ⟨fun v hv => ?_, fun v hv => ?_⟩
    · exact (sameRam2.ppPfn v (samePages ▸ hv)).trans (sameRam1.ppPfn v hv)
    · exact (sameRam2.pte v (samePages ▸ hv)).trans (sameRam1.pte v hv)
  have samePage' := machine.swapperPage
  have samePages' := machine.ramPages
  obtain ⟨-, groups, blocks, hm⟩ := machine
  refine ⟨mapped, ⟨?_, ?_, mapped.directory⟩, sameRam, ?_, ?_⟩
  · rw [hm]
    exact swapper1.aligned
  · rw [samePage', samePages']
    exact swapper1.inRam
  · rw [hm, monitor]
    rfl
  · rw [hm, monitor]
    rfl

/-! ## Requests of the running guest -/

/-- A request for pages or to give pages back. -/
inductive GuestRequest where
  | allocPages (address : Nat) (numPages : Int)
  | freePages (address : Nat) (numPages : Int)

def GuestRequest.step : GuestRequest → World → World
  | .allocPages address numPages, w => (coAllocPages address numPages w).2
  | .freePages address numPages, w => coFreePages address numPages w

def GuestRequest.address : GuestRequest → Nat
  | .allocPages address _ | .freePages address _ => address

def GuestRequest.pages : GuestRequest → Nat
  | .allocPages _ numPages | .freePages _ numPages => numPages.toNat

/-- The request is about whole pages of RAM, and the page of `swapper_pg_dir` is not among
them. -/
def GuestRequest.Valid (w : World) (r : GuestRequest) : Prop :=
  r.address % 4096 = 0 ∧ coArchKernelOffset ≤ r.address ∧
  r.address + 4096 * r.pages ≤ w.monitor.endPhysical ∧
  (w.monitor.kernelSwapperPgDir < r.address ∨
    r.address + 4096 * r.pages ≤ w.monitor.kernelSwapperPgDir)

/-- What the guest's accesses resolve to. -/
structure GuestWalks (virtToPhys : Nat → Nat) (w : World) : Prop where
  ram : ∀ a, coArchKernelOffset ≤ a → a < w.monitor.endPhysical → w.walk w.monitor.pgd a =
    if w.ppPfn (a / 4096) = 0 then none else some (w.ppPfn (a / 4096))
  passage : w.walk w.monitor.pgd coVptrPassagePage =
    some (virtToPhys w.monitor.passagePage / 4096)
  io : ∀ k < coVptrIoAreaSize / 4096, w.walk w.monitor.pgd (coVptrIoAreaStart + 4096 * k) =
    some (virtToPhys (w.monitor.ioBuffer + 4096 * k) / 4096)
  selfMap : w.walk w.monitor.pgd coVptrSelfMap = some (w.ppPfn (coVptrSelfMap / 4096))

/-- The pages the driver shares with the guest are real pages of a 32-bit host. -/
structure SharedPages (virtToPhys : Nat → Nat) (w : World) : Prop where
  word : ∀ a, virtToPhys a < wordSize
  passage : 4096 ≤ virtToPhys w.monitor.passagePage
  io : ∀ k < 16, 4096 ≤ virtToPhys (w.monitor.ioBuffer + 4096 * k)

theorem SharedPages.low {virtToPhys : Nat → Nat} (h : SharedPages virtToPhys w) (a : Nat) :
    virtToPhys a / 4096 < 2 ^ 20 := by
  have := h.word a
  simp only [wordSize] at this
  omega

theorem GuestMapped.guestWalks {virtToPhys : Nat → Nat} (h : GuestMapped virtToPhys w)
    (absent : PagesAbsent w) (ram : RamRange w) (shared : SharedPages virtToPhys w) :
    GuestWalks virtToPhys w := by
  refine ⟨fun a lo hi => h.walk_ram absent lo ?_, ?_, fun k hk => ?_, ?_⟩
  · have range := ram.range
    have whole := ram.whole
    simp only [ramAddress, World.ramPages, coArchKernelOffset] at *
    omega
  · have low := shared.passage
    exact h.walk_selfMap (by decide) (show _ = 767 by decide) h.words.passage (by omega)
      (shared.low _)
  · have hk : k < 16 := hk
    have low := shared.io k hk
    refine h.walk_selfMap ?_ ?_ (h.words.io k hk) (by omega) (shared.low _) <;>
      simp only [coVptrIoAreaStart, coVptrBase, coArchPmdSize, coArchPageSize, ptrsPerPte] <;>
      omega
  · exact h.walk_selfMap (by decide) (show _ = 0 by decide) h.words.self h.selfMap
      (h.inv.frames.low _)

/-- The state of a guest whose address space is mapped, as requests leave it. -/
structure GuestRunning (virtToPhys : Nat → Nat) (w0 w : World) : Prop where
  mapped : GuestMapped virtToPhys w
  swapper : SwapperLoaded w
  machine : SameMachine w0 w
  keepsFree : KeepsFree w0 w

/-- One call on a page of RAM other than the page directory's. -/
theorem GuestRunning.step {virtToPhys : Nat → Nat} {w0 : World} {v : Nat}
    (h : GuestRunning virtToPhys w0 w) (hv : v < w.ramPages) (ne : ramPage v ≠ w.swapperPage)
    (step : RamStep w v w') (free : KeepsFree w w') : GuestRunning virtToPhys w0 w' := by
  have mapped := h.mapped.step hv ne h.swapper.inRam step
  have pages := step.machine.ramPages
  have page := step.machine.swapperPage
  refine ⟨mapped, ⟨?_, ?_, mapped.directory⟩, h.machine.trans step.machine, h.keepsFree.trans free⟩
  · obtain ⟨-, groups, blocks, hm⟩ := step.machine
    rw [hm]
    exact h.swapper.aligned
  · rw [page, pages]
    exact h.swapper.inRam

theorem GuestRequest.step_running {virtToPhys : Nat → Nat} {w0 : World} (ram : RamRange w0)
    (r : GuestRequest) (valid : r.Valid w0) (h : GuestRunning virtToPhys w0 w) :
    GuestRunning virtToPhys w0 (r.step w) := by
  obtain ⟨aligned, lo, hi, notSwapper⟩ := valid
  have range := ram.range
  have whole := ram.whole
  obtain ⟨v, address⟩ : ∃ v, r.address = ramAddress v := by
    refine ⟨(r.address - coArchKernelOffset) / 4096, ?_⟩
    simp only [ramAddress, coArchKernelOffset] at *
    omega
  have inRange : v + r.pages ≤ w0.ramPages := by
    rw [address] at hi
    simp only [ramAddress, World.ramPages, coArchKernelOffset] at *
    omega
  have pages0 := h.machine.ramPages
  have size : w0.ramPages ≤ 251904 := pages0 ▸ h.mapped.inv.size
  have apart : ∀ u, v ≤ u → u < v + r.pages → ramPage u ≠ w0.swapperPage := by
    intro u h1 h2 same
    rw [address] at notSwapper
    simp only [ramAddress, ramPage, World.swapperPage, coArchKernelOffset] at *
    omega
  have alloc : ∀ s u, v ≤ u → u < v + r.pages → GuestRunning virtToPhys w0 s →
      GuestRunning virtToPhys w0 (coMonitorAllocAndMapPage (ramAddress u) s).2 := by
    intro s u h1 h2 hs
    have hu : u < s.ramPages := by rw [hs.machine.ramPages]; omega
    exact hs.step hu (by rw [hs.machine.swapperPage]; exact apart u h1 h2)
      (coMonitorAllocAndMapPage_step hs.mapped.inv hu).1
      (coMonitorAllocAndMapPage_keepsFree hs.mapped.inv hu)
  have free : ∀ s u, v ≤ u → u < v + r.pages → GuestRunning virtToPhys w0 s →
      GuestRunning virtToPhys w0 (coMonitorFreeAndUnmapPage (ramAddress u) s).2 := by
    intro s u h1 h2 hs
    have hu : u < s.ramPages := by rw [hs.machine.ramPages]; omega
    exact hs.step hu (by rw [hs.machine.swapperPage]; exact apart u h1 h2)
      (coMonitorFreeAndUnmapPage_step hs.mapped.inv hu).1
      (coMonitorFreeAndUnmapPage_keepsFree hs.mapped.inv hu)
  cases r with
  | allocPages a n =>
    obtain rfl : a = ramAddress v := address
    exact allocPagesLoop_keeps (i := 0) (Nat.le_trans inRange size) alloc free h
  | freePages a n =>
    obtain rfl : a = ramAddress v := address
    exact freePagesLoop_keeps (Nat.le_trans inRange size) free h

/-- From the state `alloc_pp_ram_mapping` leaves: after any calls that load the kernel and a successful
`guest_address_space_init`, the guest's accesses resolve to the memory meant for them after any valid
requests of the guest, exactly when no page of RAM without a frame had a present entry before the init
function. -/
theorem guest_address_space_iff {w0 w1 w2 : World} {mb n : Nat} {virtToPhys : Nat → Nat}
    {host : PassageHost virtToPhys} (loaded : ManagerLoaded w0)
    (hostmem : w0.manager.hostmemPages = coOsPhysicalMemoryPages n)
    (size : w0.monitor.memorySize = adjustedMemorySize mb)
    (range : w0.monitor.endPhysical = coArchKernelOffset + w0.monitor.memorySize)
    (alloc : allocPpRamMapping w0 = (.ok, w1)) (loads : List PageOp)
    (inRam : ∀ op ∈ loads, op.InRam w1.monitor.endPhysical)
    (swapper : SwapperLoaded (run PageOp.step loads w1))
    (init : guestAddressSpaceInit (setUpPassagePage host) virtToPhys (run PageOp.step loads w1) =
      (.ok, w2))
    (shared : SharedPages virtToPhys w2) :
    (∀ requests : List GuestRequest, (∀ r ∈ requests, r.Valid w2) →
      GuestWalks virtToPhys (run GuestRequest.step requests w2)) ↔
    PagesAbsent (run PageOp.step loads w1) := by
  have mapped := allocPpRamMapping_ok loaded size alloc
  have ram1 := mapped.ramRange size range
  obtain ⟨inv, -, machine⟩ := run_pagesInv ram1 (mapped.inv (mapped.covered hostmem)) inRam
  obtain ⟨tables, swapper', sameRam, memory, physical⟩ :=
    guestAddressSpaceInit_mapped inv swapper shared.low init
  have ram := machine.ramRange ram1
  have ram2 : RamRange w2 := ⟨by rw [physical, memory]; exact ram.range, memory ▸ ram.whole⟩
  have pages : w2.ramPages = (run PageOp.step loads w1).ramPages := by
    rw [World.ramPages, memory, World.ramPages]
  refine Iff.trans ?_ (sameRam.pagesFree pages)
  constructor
  · intro walks v hv free
    have page : ramAddress v / 4096 = ramPage v := ramAddress_page v
    have above : ramAddress v < w2.monitor.endPhysical := by
      have whole := ram2.whole
      rw [ram2.range]
      simp only [ramAddress, World.ramPages, coArchKernelOffset] at *
      omega
    have resolved := (walks [] (by simp)).ram (ramAddress v)
      (by simp only [ramAddress, coArchKernelOffset]; omega) above
    rw [page, run_nil, free, if_pos rfl, tables.walk_ramPage hv page] at resolved
    by_contra present
    rw [if_neg present] at resolved
    exact Option.some_ne_none _ resolved
  · intro absent requests valid
    have reached : GuestRunning virtToPhys w2 (run GuestRequest.step requests w2) :=
      run_invariant (fun s r hs valid => r.step_running ram2 valid hs)
        ⟨tables, swapper', .refl w2, .refl w2⟩ (runOk_of_forall valid)
    refine reached.mapped.guestWalks (reached.keepsFree rfl absent) (reached.machine.ramRange ram2) ?_
    obtain ⟨-, groups, blocks, hm⟩ := reached.machine
    refine ⟨shared.word, ?_, ?_⟩ <;> rw [hm]
    · exact shared.passage
    · exact shared.io

/-! ## Two hosts -/

/-- A host that maps the addresses from 2 GB on to the physical pages from 4096 on. -/
def highToPhys (a : Nat) : Nat := a % 0x80000000 + 4096

/-- A passage page in nine frames in a row. -/
def highPassageBlock : PassageBlock highToPhys where
  address := 0x80010000
  page :=
    { firstPage := 17
      guestNormal := ⟨18, fun i => if i then 20 else 19, by decide⟩
      hostPae := ⟨21, fun i => if i then 23 else 22, fun i => if i then 25 else 24, by decide⟩
      apart := by decide }
  phys := by decide

/-- An answer for every request, on a processor with PAE. -/
def highPassage : PassageHost highToPhys where
  block := some highPassageBlock
  antiNx := .ok
  codeFits := true
  pae := true
  firstPage := fun monitor i => UInt8.ofNat (monitor.pgd + i)

theorem highToPhys_shared (w : World) : SharedPages highToPhys w := by
  refine ⟨fun a => ?_, ?_, fun k _ => ?_⟩ <;> simp only [highToPhys, wordSize] <;> omega

/-- A host with frames for the page tables, the page of `swapper_pg_dir`, the self map and one more
page. -/
def runningHost : World :=
  mappedHost [some 4110, some 4111, some 4112, some 4113, some 4114]

/-- The state from which the guest of `w` starts to run. -/
def started (w : World) : World :=
  (guestAddressSpaceInit (setUpPassagePage highPassage) highToPhys
    (PageOp.step (.copyRegion 0xc0000000 16 none) (allocPpRamMapping w).2)).2

/-- A page for the guest, after which it is given back. -/
theorem guest_address_space_runningHost : GuestWalks highToPhys
    (run GuestRequest.step [.allocPages 0xc0002000 1, .freePages 0xc0002000 1]
      (started runningHost)) := by
  have loaded : ManagerLoaded runningHost := mappedHost_loaded _
  have ok : (allocPpRamMapping runningHost).1 = .ok := by decide +kernel
  have mapped := allocPpRamMapping_ok loaded (show _ = adjustedMemorySize 8 from rfl)
    (Step.eq_of_ok ok)
  have inRam : ∀ op ∈ [PageOp.copyRegion 0xc0000000 16 none],
      op.InRam (allocPpRamMapping runningHost).2.monitor.endPhysical := by
    intro op hop
    obtain rfl := List.mem_singleton.mp hop
    exact ⟨by decide, by decide +kernel⟩
  have ram1 := mapped.ramRange rfl rfl
  have hostmem : runningHost.manager.hostmemPages = coOsPhysicalMemoryPages 8100 := by decide
  refine (guest_address_space_iff loaded hostmem (show _ = adjustedMemorySize 8 from rfl) rfl
    (Step.eq_of_ok ok) [.copyRegion 0xc0000000 16 none] inRam
    ⟨by decide +kernel, ⟨0, by decide +kernel, by decide +kernel⟩, by decide +kernel⟩
    (Step.eq_of_ok (by decide +kernel)) (highToPhys_shared _)).mpr ?_ _ fun r hr => ?_
  · refine (run_pagesInv ram1 (mapped.inv (mapped.covered hostmem)) inRam).2.1 rfl fun v _ _ => ?_
    rw [World.pte, mapped.mem]
    rfl
  · rcases List.mem_cons.mp hr with rfl | hr
    · exact ⟨by decide, by decide, by decide +kernel, .inl (by decide +kernel)⟩
    · obtain rfl := List.mem_singleton.mp hr
      exact ⟨by decide, by decide, by decide +kernel, .inl (by decide +kernel)⟩

/-- The host with a frame for the page tables that was a page table before: it still has an entry. -/
def staleGuest : World :=
  runningHost.setMem (ByteMem.writeWord (fun _ => 0) (4110 * 4096 + 4) 0x5000063)

/-- There the second page of RAM has no frame, and the guest's access to it resolves to one. -/
theorem staleGuest_walk :
    ManagerLoaded staleGuest ∧ staleGuest.manager.hostmemPages = coOsPhysicalMemoryPages 8100 ∧
    (allocPpRamMapping staleGuest).1 = .ok ∧
    (guestAddressSpaceInit (setUpPassagePage highPassage) highToPhys
      (PageOp.step (.copyRegion 0xc0000000 16 none) (allocPpRamMapping staleGuest).2)).1 = .ok ∧
    GuestRequest.Valid (started staleGuest) (.allocPages 0xc0002000 1) ∧
    ¬ GuestWalks highToPhys
      (run GuestRequest.step [.allocPages 0xc0002000 1] (started staleGuest)) := by
  refine ⟨⟨by decide, by decide, by decide, by decide, by decide, by decide⟩, by decide,
    by decide +kernel, by decide +kernel,
    ⟨by decide, by decide, by decide +kernel, .inl (by decide +kernel)⟩, fun walks => ?_⟩
  have ram := walks.ram 0xc0001000 (by decide) (by decide +kernel)
  exact absurd ram (by decide +kernel)

end CoLinux
