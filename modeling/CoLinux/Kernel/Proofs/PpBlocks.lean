import CoLinux.Kernel.AddressSpace
import CoLinux.Kernel.Proofs.RamMapping

/-!
# The blocks of the frame table

`pp_pfns` and its groups are blocks from `co_monitor_malloc`. Whatever a call of the paging code
returns, each group it adds is one more allocated block, and nothing about the monitor changes
that other code relies on. `free_pseudo_physical_memory` gives all of them back.
-/

namespace CoLinux

open Lib

/-- The groups of `pp_pfns` that were allocated. -/
def World.ppGroups (w : World) : List Nat :=
  (List.range ptrsPerPgd).filter fun g => (w.monitor.ppPfns g).isSome

/-- `w'` comes from `w` by allocating groups. -/
structure Grown (w w' : World) : Prop where
  manager : w'.manager = w.manager
  memorySize : w'.monitor.memorySize = w.monitor.memorySize
  endPhysical : w'.monitor.endPhysical = w.monitor.endPhysical
  hasPpPfns : w'.monitor.hasPpPfns = w.monitor.hasPpPfns
  swapper : w'.monitor.kernelSwapperPgDir = w.monitor.kernelSwapperPgDir
  groups : ∀ g, (w.monitor.ppPfns g).isSome → (w'.monitor.ppPfns g).isSome
  blocks : w'.monitor.blocksAllocated + w.ppGroups.length =
    w.monitor.blocksAllocated + w'.ppGroups.length

theorem Grown.refl (w : World) : Grown w w := ⟨rfl, rfl, rfl, rfl, rfl, fun _ h => h, rfl⟩

theorem Grown.trans {w w' w'' : World} (h : Grown w w') (h' : Grown w' w'') : Grown w w'' :=
  ⟨h'.manager.trans h.manager, h'.memorySize.trans h.memorySize,
    h'.endPhysical.trans h.endPhysical, h'.hasPpPfns.trans h.hasPpPfns, h'.swapper.trans h.swapper,
    fun g hg => h'.groups g (h.groups g hg), by have := h.blocks; have := h'.blocks; omega⟩

/-- Another state with the same monitor and manager. -/
theorem Grown.of_monitor {w w' : World} (manager : w'.manager = w.manager)
    (monitor : w'.monitor = w.monitor) : Grown w w' := by
  refine ⟨manager, ?_, ?_, ?_, ?_, ?_, ?_⟩ <;> simp only [World.ppGroups, monitor]
  exact fun _ h => h

variable {w : World}

/-- Changing entries of a group that is there. -/
theorem setPpPfn_grown (w : World) (g i p : Nat) : Grown w (w.setPpPfn g i p) := by
  unfold World.setPpPfn
  cases hg : w.monitor.ppPfns g with
  | none => exact .refl w
  | some pfns =>
    have same (x : Nat) : ((w.setPpGroup g fun j => if j = i then p else pfns j).monitor.ppPfns
        x).isSome = (w.monitor.ppPfns x).isSome := by
      unfold World.setPpGroup
      by_cases own : x = g
      · simp [own, hg]
      · simp [own]
    refine ⟨rfl, rfl, rfl, rfl, rfl, fun x hx => (same x).trans hx, ?_⟩
    simp only [World.ppGroups, same]
    rfl

theorem setPpGroup_grown (w : World) {g : Nat} (hg : g < ptrsPerPgd)
    (fresh : w.monitor.ppPfns g = none) (pfns : Nat → Nat) :
    (w.setPpGroup g pfns).ppGroups.length = w.ppGroups.length + 1 := by
  have perm : (w.setPpGroup g pfns).ppGroups.Perm (g :: w.ppGroups) := by
    apply (List.perm_ext_iff_of_nodup ((List.nodup_range).filter _) _).mpr
    · intro x
      by_cases own : x = g
      · simp [World.ppGroups, World.setPpGroup, own, hg]
      · simp [World.ppGroups, World.setPpGroup, own]
    · exact List.nodup_cons.mpr ⟨by simp [World.ppGroups, fresh], (List.nodup_range).filter _⟩
  exact perm.length_eq

/-- A request for a block is granted and counted, or refused. -/
theorem coMonitorMalloc_granted_or_refused (w : World) :
    ∃ mallocs, coMonitorMalloc w = (.ok, { w with
        monitor := { w.monitor with blocksAllocated := w.monitor.blocksAllocated + 1 }
        host := { w.host with mallocs := mallocs } }) ∨
      coMonitorMalloc w = (.outOfMemory, w.setHost { w.host with mallocs := mallocs }) := by
  unfold coMonitorMalloc coOsMalloc
  cases w.host.mallocs with
  | nil => exact ⟨w.host.mallocs, .inr rfl⟩
  | cons granted rest =>
    cases granted with
    | false => exact ⟨rest, .inr rfl⟩
    | true => exact ⟨rest, .inl rfl⟩

theorem allocPpGroup_grown (failure : CoRc) {g : Nat} (hg : g < ptrsPerPgd) (w : World) :
    Grown w (allocPpGroup failure g w).2 := by
  unfold allocPpGroup
  by_cases present : (w.monitor.ppPfns g).isSome
  · rw [if_pos present]
    exact .refl w
  rw [if_neg present]
  have fresh : w.monitor.ppPfns g = none := by simpa using present
  obtain ⟨mallocs, granted | refused⟩ := coMonitorMalloc_granted_or_refused w
  · simp only [granted, if_true]
    refine ⟨rfl, rfl, rfl, rfl, rfl, fun x hx => ?_, ?_⟩
    · simp only [World.setPpGroup]
      split
      · rfl
      · exact hx
    · have count := setPpGroup_grown { w with
        monitor := { w.monitor with blocksAllocated := w.monitor.blocksAllocated + 1 }
        host := { w.host with mallocs := mallocs } } hg fresh fun _ => 0
      rw [count]
      simp only [World.setPpGroup, World.ppGroups]
      omega
  · simp only [refused, if_neg (show ¬ CoRc.outOfMemory = .ok by decide)]
    exact .of_monitor rfl rfl

theorem coManagerGetPage_grown (w : World) : Grown w (coManagerGetPage w).2 := by
  cases h : coManagerGetPage w with
  | mk result w' =>
    cases result with
    | error rc =>
      obtain ⟨-, host, rfl, -⟩ := coManagerGetPage_error h
      exact .of_monitor rfl rfl
    | ok pfn =>
      obtain ⟨rest, -, -, -, -, rfl⟩ := coManagerGetPage_ok h
      exact .of_monitor rfl rfl

theorem recordedOrNewPfn_grown (page : Nat) (w : World) : Grown w (recordedOrNewPfn page w).2 := by
  unfold recordedOrNewPfn
  have page' := coManagerGetPage_grown w
  split
  · exact .refl w
  · split <;> rename_i h <;> rw [h] at page'
    · exact page'
    · exact page'.trans (setPpPfn_grown _ _ _ _)

theorem callScanFunc_grown (func : Option ScanFunc) (realPfn offset size : Nat) (s : World × Nat) :
    Grown s.1 (callScanFunc func realPfn offset size s).1 := by
  unfold callScanFunc
  split
  · exact .refl _
  · exact .of_monitor rfl rfl

/-- A page number of a 32 bit address is in one of the groups. -/
theorem group_lt {address : Nat} (h : address < wordSize) :
    address / coArchPageSize / ptrsPerPte < ptrsPerPgd := by
  simp only [wordSize, coArchPageSize, ptrsPerPte, ptrsPerPgd] at *
  omega

theorem scanPfnsSplitCallback_grown (func : Option ScanFunc) (allocPages : Bool) {offset : Nat}
    (ho : offset < wordSize) (size : Nat) (s : World × Nat) :
    Grown s.1 (scanPfnsSplitCallback func allocPages offset size s).2.1 := by
  have group := allocPpGroup_grown .error (group_lt ho) s.1
  unfold scanPfnsSplitCallback
  dsimp only
  split
  · exact group
  · split
    · exact group
    · have page := recordedOrNewPfn_grown (offset / coArchPageSize)
        (allocPpGroup .error (offset / coArchPageSize / ptrsPerPte) s.1).2
      split <;> rename_i h <;> rw [h] at page
      · exact group.trans page
      · exact (group.trans page).trans (callScanFunc_grown _ _ _ _ (_, s.2))

theorem coManagerScanPfnsAndCallback_grown {address : Nat} (ha : address < wordSize) (size : Nat)
    (func : Option ScanFunc) (allocPages : Bool) (w : World) :
    Grown w (coManagerScanPfnsAndCallback address size func allocPages w).2 :=
  coSplit_rel (R := fun s s' : World × Nat => Grown s.1 s'.1) (fun s => .refl s.1)
    (fun _ _ _ => Grown.trans) (fun _ n s ho => scanPfnsSplitCallback_grown func allocPages ho n s)
    ha (w, 0)

/-- A step after another one. -/
theorem andThen_grown {x : Step World} {f : World → Step World} (h : Grown w x.2)
    (hf : ∀ w, Grown w (f w).2) : Grown w (x.andThen f).2 := by
  by_cases ok : x.1 = .ok
  · rw [Step.andThen_of_ok ok]
    exact h.trans (hf x.2)
  · rw [Step.andThen_of_ne ok]
    exact h

/-! ## Mapping pages and copying -/

theorem coManagerSetReversedPfn_grown (realPfn pseudoPfn : Nat) (w : World) :
    Grown w (coManagerSetReversedPfn realPfn pseudoPfn w).2 := by
  unfold coManagerSetReversedPfn
  split
  · exact .refl w
  · exact .of_monitor rfl rfl

theorem mapPage_grown (address pfn : Nat) (w : World) : Grown w (mapPage address pfn w).2 :=
  andThen_grown ((setPpPfn_grown w _ _ _).trans (coManagerSetReversedPfn_grown _ _ _))
    fun _ => coManagerScanPfnsAndCallback_grown (Nat.mod_lt _ (by decide)) _ _ _ _

theorem coMonitorAllocAndMapPage_grown {address : Nat} (ha : address < wordSize) (w : World) :
    Grown w (coMonitorAllocAndMapPage address w).2 := by
  apply andThen_grown (allocPpGroup_grown _ (group_lt ha) w)
  intro w
  have page := coManagerGetPage_grown w
  split
  · exact .refl w
  · split <;> rename_i h <;> rw [h] at page
    · exact page
    · exact page.trans (mapPage_grown _ _ _)

theorem copyRegionSplitCallback_grown (data : Option (Nat → UInt8)) {offset : Nat}
    (ho : offset < wordSize) (size : Nat) (s : World × Nat) :
    Grown s.1 (copyRegionSplitCallback data offset size s).2.1 := by
  have mapped := coMonitorAllocAndMapPage_grown
    (Nat.lt_of_le_of_lt (Nat.div_mul_le_self offset coArchPageSize) ho) s.1
  unfold copyRegionSplitCallback
  dsimp only
  split
  · exact mapped
  · split
    · exact mapped
    · exact mapped.trans (.of_monitor rfl rfl)

theorem coMonitorCopyRegion_grown {address : Nat} (ha : address < wordSize) (size : Nat)
    (data : Option (Nat → UInt8)) (w : World) : Grown w (coMonitorCopyRegion address size data w).2 :=
  coSplit_rel (R := fun s s' : World × Nat => Grown s.1 s'.1) (fun s => .refl s.1)
    (fun _ _ _ => Grown.trans) (fun _ n s ho => copyRegionSplitCallback_grown data ho n s) ha (w, 0)

/-! ## Pages the guest asks for -/

theorem coMonitorFreeAndUnmapPage_grown (address : Nat) (w : World) :
    Grown w (coMonitorFreeAndUnmapPage address w).2 := by
  have cleared : Grown w
      (coMonitorCreatePtes (pteAddress (virtualPfn address)) sizeofPte (fun _ _ => 0) w).2 :=
    coManagerScanPfnsAndCallback_grown (Nat.mod_lt _ (by decide)) _ _ _ w
  unfold coMonitorFreeAndUnmapPage
  dsimp only
  generalize (coMonitorCreatePtes (pteAddress (virtualPfn address)) sizeofPte
    (fun _ _ => 0) w).2 = w1 at cleared
  split
  · exact .refl w
  split
  · exact cleared
  · have reversed := coManagerSetReversedPfn_grown (w1.ppPfn (address / coArchPageSize)) 0 w1
    generalize (coManagerSetReversedPfn (w1.ppPfn (address / coArchPageSize)) 0 w1).2 = w2
      at reversed
    have put : Grown w2 (coOsPutPage (w1.ppPfn (address / coArchPageSize)) w2) :=
      .of_monitor rfl rfl
    exact ((cleared.trans reversed).trans put).trans (setPpPfn_grown _ _ _ _)

theorem freePagesLoop_grown (n address : Nat) (w : World) :
    Grown w (freePagesLoop n address w) := by
  induction n generalizing address w with
  | zero => exact .refl w
  | succ n ih => exact (coMonitorFreeAndUnmapPage_grown address w).trans (ih _ _)

theorem allocPagesLoop_grown (address n i : Nat) {scanAddress : Nat} (hs : scanAddress < wordSize)
    (w : World) : Grown w (allocPagesLoop address n i scanAddress w).2 := by
  induction n generalizing i scanAddress w with
  | zero => exact .refl w
  | succ n ih =>
    have mapped := coMonitorAllocAndMapPage_grown hs w
    unfold allocPagesLoop
    dsimp only
    split
    · exact mapped.trans (ih _ (Nat.mod_lt _ (by decide)) _)
    · exact mapped.trans (freePagesLoop_grown _ _ _)

/-! ## The guest's address space -/

theorem coMonitorCreatePtes_grown {address : Nat} (ha : address < wordSize) (size : Nat)
    (source : World → Nat → Nat) (w : World) :
    Grown w (coMonitorCreatePtes address size source w).2 :=
  coManagerScanPfnsAndCallback_grown ha _ _ _ w

theorem coMonitorCopyAndCreatePfns_grown {address : Nat} (ha : address < wordSize) (size : Nat)
    (source : Nat → UInt8) (w : World) :
    Grown w (coMonitorCopyAndCreatePfns address size source w).2 :=
  coManagerScanPfnsAndCallback_grown ha _ _ _ w

theorem mapIoBuffer_grown (virtToPhys : Nat → Nat) {n offset : Nat} (ho : offset + 4 * n ≤ 4096)
    (host : Nat) (w : World) : Grown w (mapIoBuffer virtToPhys n offset host w).2 := by
  induction n generalizing offset host w with
  | zero => exact .refl w
  | succ n ih =>
    apply andThen_grown (coMonitorCreatePtes_grown (by
      simp only [coVptrSelfMap, coVptrBase, wordSize]; omega) _ _ w)
    exact fun w => ih (by simp only [sizeofPte]; omega) _ w

theorem initPageTables_grown (virtToPhys : Nat → Nat) {w : World}
    (hs : w.monitor.kernelSwapperPgDir < wordSize) :
    Grown w (initPageTables virtToPhys w).2 := by
  unfold initPageTables
  apply andThen_grown (coMonitorCreatePtes_grown hs _ _ w)
  intro w1
  apply andThen_grown (coMonitorCopyAndCreatePfns_grown (Nat.mod_lt _ (by decide)) _ _ w1)
  intro w2
  apply andThen_grown (coMonitorCreatePtes_grown (by decide) _ _ w2)
  intro w3
  split
  · exact .refl w3
  apply andThen_grown (coMonitorCreatePtes_grown (Nat.mod_lt _ (by decide)) _ _ w3)
  intro w4
  apply andThen_grown (coMonitorCreatePtes_grown (by decide) _ _ w4)
  intro w5
  apply andThen_grown (coMonitorCreatePtes_grown (by decide) _ _ w5)
  exact fun w6 => mapIoBuffer_grown virtToPhys (by decide) _ w6

/-- With a passage step that grows the frame table at most. -/
theorem guestAddressSpaceInit_grown {passage : World → Step World} {virtToPhys : Nat → Nat}
    (hp : ∀ w, Grown w (passage w).2) {w : World}
    (hs : w.monitor.kernelSwapperPgDir < wordSize) :
    Grown w (guestAddressSpaceInit passage virtToPhys w).2 := by
  unfold guestAddressSpaceInit
  split
  · exact .refl w
  rename_i pfn _
  have pgd : Grown w (w.setPgd (pfn <<< coArchPageShift % wordSize)) :=
    ⟨rfl, rfl, rfl, rfl, rfl, fun _ h => h, rfl⟩
  have passed := pgd.trans (hp _)
  by_cases ok : (passage (w.setPgd (pfn <<< coArchPageShift % wordSize))).1 = .ok
  · rw [Step.andThen_of_ok ok]
    split
    · exact passed
    · exact passed.trans (initPageTables_grown virtToPhys (by rw [passed.swapper]; exact hs))
  · rw [Step.andThen_of_ne ok]
    exact passed

/-! ## Giving the blocks back -/

/-- The blocks of the frame table: the array and its groups. -/
def World.ppBlocks (w : World) : Nat :=
  if w.monitor.hasPpPfns then 1 + w.ppGroups.length else 0

/-- There are no groups without the array. -/
def PpOk (w : World) : Prop := w.monitor.hasPpPfns = false → w.ppGroups = []

theorem Grown.ppBlocks {w w' : World} (h : Grown w w') (has : w.monitor.hasPpPfns = true) :
    w'.monitor.blocksAllocated + w.ppBlocks = w.monitor.blocksAllocated + w'.ppBlocks := by
  have := h.blocks
  simp only [World.ppBlocks, h.hasPpPfns, has, if_true]
  omega

/-- The frames of a group, as the inner loop of `free_pseudo_physical_memory` gives them back. -/
theorem putGroup (pfns : Nat → Nat) (indices : List Nat) (w : World) :
    indices.foldl (fun w i => if pfns i ≠ 0 then coOsPutPage (pfns i) w else w) w =
      w.setHost { w.host with
        out := w.host.out.filter fun q => ∀ i ∈ indices, pfns i ≠ 0 → q ≠ pfns i } := by
  induction indices generalizing w with
  | nil => simp [World.setHost]
  | cons i is ih =>
    rw [List.foldl_cons, ih]
    by_cases used : pfns i ≠ 0
    · rw [if_pos used]
      simp only [World.setHost, coOsPutPage, List.filter_filter, World.mk.injEq, Host.mk.injEq,
        and_true, true_and, List.forall_mem_cons]
      apply List.filter_congr
      intro q _
      rw [← Bool.decide_and, decide_eq_decide, and_comm]
      exact and_congr_left fun _ => (imp_iff_right used).symm
    · rw [if_neg used]
      simp [World.setHost, used]

/-- The state after the groups of a list have been freed. -/
theorem freeGroups (groups : List Nat) (w : World) :
    ∃ out, (∀ q, q ∈ out ↔ q ∈ w.host.out ∧ ∀ g ∈ groups, ∀ pfns, w.monitor.ppPfns g = some pfns →
        ∀ i < ptrsPerPte, pfns i ≠ 0 → q ≠ pfns i) ∧
      groups.foldl (fun w group =>
        match w.monitor.ppPfns group with
        | none => w
        | some pfns => coMonitorFree ((List.range ptrsPerPte).foldl (fun w i =>
            if pfns i ≠ 0 then coOsPutPage (pfns i) w else w) w)) w =
        { w with
          host := { w.host with out := out }
          monitor := { w.monitor with blocksAllocated := w.monitor.blocksAllocated -
            (groups.filter fun g => (w.monitor.ppPfns g).isSome).length } } := by
  induction groups generalizing w with
  | nil => exact ⟨w.host.out, by simp, by simp⟩
  | cons g gs ih =>
    rw [List.foldl_cons]
    cases hg : w.monitor.ppPfns g with
    | none =>
      obtain ⟨out, mem, result⟩ := ih w
      refine ⟨out, fun q => ?_, ?_⟩
      · rw [mem q]
        simp [hg]
      · rw [result]
        simp [hg]
    | some pfns =>
      dsimp only
      rw [putGroup]
      obtain ⟨out, mem, result⟩ := ih (coMonitorFree (w.setHost { w.host with
        out := w.host.out.filter fun q => ∀ i ∈ List.range ptrsPerPte, pfns i ≠ 0 → q ≠ pfns i }))
      refine ⟨out, fun q => ?_, ?_⟩
      · rw [mem q]
        simp [coMonitorFree, World.setHost, hg, and_assoc]
      · rw [result]
        simp [coMonitorFree, World.setHost, hg, Nat.sub_sub, Nat.add_comm]

/-- What `free_pseudo_physical_memory` leaves. -/
structure PpFreed (w w' : World) : Prop where
  mem : w'.mem = w.mem
  manager : w'.manager = w.manager
  memorySize : w'.monitor.memorySize = w.monitor.memorySize
  swapper : w'.monitor.kernelSwapperPgDir = w.monitor.kernelSwapperPgDir
  hasPpPfns : w'.monitor.hasPpPfns = false
  ppOk : PpOk w → PpOk w'
  blocks : w'.monitor.blocksAllocated = w.monitor.blocksAllocated - w.ppBlocks
  out : w.monitor.hasPpPfns = true → ∀ q, q ∈ w'.host.out ↔
    q ∈ w.host.out ∧ ∀ n < ptrsPerPgd * ptrsPerPte, w.ppPfn n ≠ 0 → q ≠ w.ppPfn n

theorem freePseudoPhysicalMemory_freed (w : World) : PpFreed w (freePseudoPhysicalMemory w) := by
  by_cases has : w.monitor.hasPpPfns = false
  · rw [freePseudoPhysicalMemory, if_pos has]
    exact ⟨rfl, rfl, rfl, rfl, has, id, by simp [World.ppBlocks, has], fun h => by simp [has] at h⟩
  · obtain ⟨out, mem, result⟩ := freeGroups (List.range ptrsPerPgd) w
    have freed : freePseudoPhysicalMemory w = _ := (if_neg has).trans
      (congrArg (fun v : World => coMonitorFree { v with
        monitor := { v.monitor with hasPpPfns := false, ppPfns := fun _ => none } }) result)
    rw [freed]
    refine ⟨rfl, rfl, rfl, rfl, rfl, fun _ _ => by simp [World.ppGroups, coMonitorFree], ?_,
      fun _ q => ?_⟩
    · simp only [coMonitorFree, World.ppBlocks, Bool.not_eq_false] at has ⊢
      rw [if_pos has, World.ppGroups]
      omega
    · show q ∈ out ↔ _
      rw [mem q]
      refine and_congr_right fun _ => ⟨fun h n hn used => ?_, fun h g hg pfns hp i hi used => ?_⟩
      · unfold World.ppPfn at used ⊢
        cases hp : w.monitor.ppPfns (n / ptrsPerPte) with
        | none => simp [hp] at used
        | some pfns =>
          simp only [hp] at used ⊢
          exact h _ (List.mem_range.mpr (Nat.div_lt_of_lt_mul (by rwa [Nat.mul_comm]))) pfns hp _
            (Nat.mod_lt _ (by decide)) used
      · have entry : w.ppPfn (g * ptrsPerPte + i) = pfns i := by
          unfold World.ppPfn
          rw [show (g * ptrsPerPte + i) / ptrsPerPte = g by simp only [ptrsPerPte] at *; omega, hp,
            show (g * ptrsPerPte + i) % ptrsPerPte = i by simp only [ptrsPerPte] at *; omega]
        rw [← entry] at used ⊢
        refine h _ ?_ used
        have := List.mem_range.mp hg
        simp only [ptrsPerPgd, ptrsPerPte] at *
        omega

/-! ## Allocating the table -/

/-- The guest's memory is not larger than `CO_LOWMEMORY_MAX_MB`. -/
def SmallMemory (w : World) : Prop := w.monitor.memorySize ≤ 984 * 1048576

theorem scanPageTables_grown {w : World} (small : SmallMemory w) :
    Grown w (scanPageTables w).2 := by
  have full : Grown w (coMonitorScanAndCreatePfns coVptrPseudoRamPageTables
      (fullPageTablesSize w.monitor.memorySize) w).2 :=
    coManagerScanPfnsAndCallback_grown (by decide) _ _ _ w
  unfold scanPageTables
  generalize coMonitorScanAndCreatePfns coVptrPseudoRamPageTables
    (fullPageTablesSize w.monitor.memorySize) w = r at full
  by_cases ok : r.1 = .ok
  · rw [Step.andThen_of_ok ok]
    split
    · refine full.trans (coManagerScanPfnsAndCallback_grown ?_ _ _ _ r.2)
      rw [full.memorySize]
      unfold SmallMemory at small
      simp only [fullPageTablesSize, coVptrPseudoRamPageTables, coVptrBase, coArchPageSize,
        coArchPmdSize, wordSize]
      omega
    · exact full
  · rw [Step.andThen_of_ne ok]
    exact full

/-- What `alloc_pp_ram_mapping` does to the books, whether it succeeds or not. -/
structure PpAllocated (w : World) (r : Step World) : Prop where
  manager : r.2.manager = w.manager
  memorySize : r.2.monitor.memorySize = w.monitor.memorySize
  swapper : r.2.monitor.kernelSwapperPgDir = w.monitor.kernelSwapperPgDir
  hasPpPfns : r.2.monitor.hasPpPfns = true ↔ r.1 = .ok
  ppOk : PpOk r.2
  blocks : r.2.monitor.blocksAllocated = w.monitor.blocksAllocated + r.2.ppBlocks

theorem allocPpRamMapping_allocated {w : World} (small : SmallMemory w)
    (absent : w.monitor.hasPpPfns = false) (ppOk : PpOk w) :
    PpAllocated w (allocPpRamMapping w) := by
  unfold allocPpRamMapping
  obtain ⟨mallocs, granted | refused⟩ := coMonitorMalloc_granted_or_refused w
  · rw [granted, Step.andThen_ok]
    dsimp only
    generalize hw1 : (World.mk _ _ _ _ : World) = w1
    have has : w1.monitor.hasPpPfns = true := by rw [← hw1]
    have noGroups : w1.ppGroups = [] := by rw [← hw1]; simp [World.ppGroups]
    have one : w1.monitor.blocksAllocated = w.monitor.blocksAllocated + 1 := by rw [← hw1]
    have same : w1.manager = w.manager ∧ w1.monitor.memorySize = w.monitor.memorySize ∧
        w1.monitor.kernelSwapperPgDir = w.monitor.kernelSwapperPgDir := by
      rw [← hw1]
      exact ⟨rfl, rfl, rfl⟩
    have grown := scanPageTables_grown (w := w1) (by rw [SmallMemory, same.2.1]; exact small)
    have count := grown.ppBlocks has
    have start : w1.ppBlocks = 1 := by simp [World.ppBlocks, has, noGroups]
    have has' := grown.hasPpPfns.trans has
    generalize scanPageTables w1 = r at grown count has'
    by_cases ok : r.1 = .ok
    · rw [if_pos ok]
      exact ⟨grown.manager.trans same.1, grown.memorySize.trans same.2.1,
        grown.swapper.trans same.2.2, iff_of_true has' ok, fun h => by simp [has'] at h, by omega⟩
    · rw [if_neg ok]
      have freed := freePseudoPhysicalMemory_freed r.2
      refine ⟨freed.manager.trans (grown.manager.trans same.1),
        freed.memorySize.trans (grown.memorySize.trans same.2.1),
        freed.swapper.trans (grown.swapper.trans same.2.2),
        iff_of_false (by simp [freed.hasPpPfns]) ok,
        freed.ppOk fun h => by simp [has'] at h, ?_⟩
      have := freed.blocks
      have none : (freePseudoPhysicalMemory r.2).ppBlocks = 0 := by
        simp [World.ppBlocks, freed.hasPpPfns]
      show (freePseudoPhysicalMemory r.2).monitor.blocksAllocated =
        w.monitor.blocksAllocated + (freePseudoPhysicalMemory r.2).ppBlocks
      omega
  · rw [refused, Step.andThen_of_ne (by simp)]
    refine ⟨rfl, rfl, rfl, iff_of_false (by simp [absent]) (by simp), ppOk, ?_⟩
    simp [World.ppBlocks, absent]

end CoLinux
