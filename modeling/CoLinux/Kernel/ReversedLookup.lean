import CoLinux.Kernel.Coherence
import CoLinux.Kernel.Proofs.GuestMapped
import Mathlib.Logic.Function.Basic

/-!
# Lookups in the reversed map

The guest finds the word of a host frame at `CO_VPTR_PHYSICAL_TO_PSEUDO_PFN_MAP`, through the page
directory entries `reversed_map_pgds`. The driver stores words for the frames of whole pages of the
map only, and its number of host pages is a multiple of what such a page covers.
-/

namespace CoLinux

open Lib

/-- The frame of a virtual address of the reversed map, from the page directory entries that the
driver has for it. -/
def World.reversedWalk (w : World) (address : Nat) : Option Nat :=
  let index := address / coArchPmdSize - coVptrPhysicalToPseudoPfnMap / coArchPmdSize
  if w.manager.reversedMapPgdsCount ≤ index then none
  else
    let pde := w.manager.reversedMapPgds index
    if pde % 2 = 0 then none
    else
      let pte := w.mem.readWord (pde / 4096 * 4096 + 4 * (address / coArchPageSize % ptrsPerPte))
      if pte % 2 = 0 then none else some (pte / 4096)

/-- The address of the guest's `CO_VA_PFN(pfn << PAGE_SHIFT)`. -/
def coVaPfn (pfn : Nat) : Nat :=
  coVptrPhysicalToPseudoPfnMap + 4 * (pfn <<< coArchPageShift % wordSize / coArchPageSize)

/-- Where the guest finds the word of a frame. -/
def World.reversedSlot (w : World) (pfn : Nat) : Option Nat :=
  (w.reversedWalk (coVaPfn pfn)).map fun frame =>
    frame * coArchPageSize + coVaPfn pfn % coArchPageSize

/-- The guest's `CO_PFN_P_TO_PP`. -/
def World.coPfnPToPp (w : World) (pfn : Nat) : Option Nat := (w.reversedSlot pfn).map w.mem.readWord

/-- A page directory that has the driver's entries leads to the same frames. -/
theorem walk_eq_reversedWalk {w : World} {cr3 address : Nat}
    (pgds : ∀ i < w.manager.reversedMapPgdsCount,
      w.mem.readWord (cr3 + 4 * (coVptrPhysicalToPseudoPfnMap / coArchPmdSize + i)) =
        w.manager.reversedMapPgds i)
    (low : coVptrPhysicalToPseudoPfnMap ≤ address)
    (high : address / coArchPmdSize - coVptrPhysicalToPseudoPfnMap / coArchPmdSize <
      w.manager.reversedMapPgdsCount) :
    w.walk cr3 address = w.reversedWalk address := by
  have base : coVptrPhysicalToPseudoPfnMap / coArchPmdSize +
      (address / coArchPmdSize - coVptrPhysicalToPseudoPfnMap / coArchPmdSize) =
        address / coArchPmdSize :=
    Nat.add_sub_cancel' (Nat.div_le_div_right low)
  have entry := pgds _ high
  rw [base] at entry
  unfold World.walk World.reversedWalk
  dsimp only
  rw [entry, if_neg (Nat.not_le.mpr high)]

/-! ## The table after the load -/

/-- The one page table of the reversed map: its page is not one of the map's. -/
structure ReversedTable (w : World) (table : Nat) : Prop where
  loaded : ManagerLoaded w
  low : ∀ i < w.manager.reversedPageCount, w.manager.reversedMapPfns i < 2 ^ 20
  pgd : w.manager.reversedMapPgds 0 = linuxPte table
  present : table ≠ 0
  tableLow : table < 2 ^ 20
  apart : ∀ i < w.manager.reversedPageCount, w.manager.reversedMapPfns i ≠ table
  ptes : ∀ j < w.manager.reversedPageCount,
    w.mem.readWord (table * 4096 + 4 * j) = linuxPte (w.manager.reversedMapPfns j)

variable {w w' : World}

theorem coVaPfn_eq {pfn : Nat} (low : pfn < 2 ^ 20) :
    coVaPfn pfn = coVptrPhysicalToPseudoPfnMap + 4 * pfn := by
  have page : pfn <<< coArchPageShift % wordSize / coArchPageSize = pfn := by
    rw [Nat.shiftLeft_eq]
    simp only [coArchPageShift, coArchPageSize, wordSize]
    omega
  rw [coVaPfn, page]

/-- The guest finds the driver's word of every frame that a page of the map covers. -/
theorem ReversedTable.slot {table : Nat} (h : ReversedTable w table) {pfn : Nat}
    (covered : pfn / ptrsPerPte < w.manager.reversedPageCount) :
    w.reversedSlot pfn = some (reversedEntry w.manager pfn) := by
  have count := h.loaded.count
  have hostmem := h.loaded.hostmem
  have pgds := h.loaded.pgds
  have low : pfn < 2 ^ 20 := by
    simp only [ptrsPerPte] at covered count
    omega
  have address := coVaPfn_eq low
  have index : coVaPfn pfn / coArchPmdSize - coVptrPhysicalToPseudoPfnMap / coArchPmdSize = 0 := by
    rw [address]
    simp only [coVptrPhysicalToPseudoPfnMap, coVptrBase, coArchPmdSize]
    omega
  have page : coVaPfn pfn / coArchPageSize % ptrsPerPte = pfn / ptrsPerPte := by
    rw [address]
    simp only [coVptrPhysicalToPseudoPfnMap, coVptrBase, coArchPageSize, ptrsPerPte]
    omega
  have offset : coVaPfn pfn % coArchPageSize = 4 * (pfn % ptrsPerPte) := by
    rw [address]
    simp only [coVptrPhysicalToPseudoPfnMap, coVptrBase, coArchPageSize, ptrsPerPte]
    omega
  obtain ⟨pdePresent, pdeFrame⟩ := linuxPte_present h.present h.tableLow
  obtain ⟨ptePresent, pteFrame⟩ := linuxPte_present (h.loaded.present _ covered) (h.low _ covered)
  have pde : ¬linuxPte table % 2 = 0 := by omega
  have pte : ¬linuxPte (w.manager.reversedMapPfns (pfn / ptrsPerPte)) % 2 = 0 := by omega
  have walk : w.reversedWalk (coVaPfn pfn) =
      some (w.manager.reversedMapPfns (pfn / ptrsPerPte)) := by
    unfold World.reversedWalk
    dsimp only
    rw [index, page, pgds, if_neg (by decide), h.pgd, if_neg pde, pdeFrame,
      h.ptes _ covered, if_neg pte, pteFrame]
  unfold World.reversedSlot
  rw [walk, offset]
  rfl

/-- The pages of the map are frames of the host. -/
theorem allocTopLevelPages_low {n : Nat} {w w' : World}
    (h : allocTopLevelPages n w = (.ok, w')) :
    ∀ i < n, w'.manager.reversedMapPfns i < w.manager.hostmemPages := by
  induction n generalizing w' with
  | zero => exact fun i hi => absurd hi (Nat.not_lt_zero i)
  | succ n ih =>
    rw [allocTopLevelPages] at h
    generalize hr : allocTopLevelPages n w = r at h
    obtain ⟨rc, w1⟩ := r
    by_cases ok : rc = .ok
    · subst ok
      obtain ⟨-, hostmem, -⟩ := allocTopLevelPages_ok hr
      rw [Step.andThen_ok] at h
      cases hp : coManagerGetPage w1 with
      | mk result w2 =>
        cases result with
        | error rc =>
          simp only [hp, Prod.mk.injEq] at h
          exact absurd h.1 (coManagerGetPage_error hp).1
        | ok p =>
          simp only [hp, Prod.mk.injEq, true_and] at h
          obtain ⟨rest, -, -, -, below, rfl⟩ := coManagerGetPage_ok hp
          subst h
          intro i hi
          by_cases last : i = n
          · simp only [World.setManager, last, if_true]
            exact hostmem ▸ below
          · simp only [World.setManager, last, if_false]
            exact ih hr i (by omega)
    · rw [Step.andThen_of_ne ok, Prod.mk.injEq] at h
      exact absurd h.1 ok

/-- On a host of up to 4 GB only the first page directory entry gets a page table. -/
theorem allocReversedPgds_table {n used : Nat} {w w' : World}
    (hostmem : w.manager.hostmemPages ≤ 2 ^ 20) (nonempty : 0 < w.manager.hostmemPages)
    (h : allocReversedPgds (n + 1) (w, 0) = (.ok, w', used)) :
    ∃ pfn, pfn ≠ 0 ∧ pfn ∉ w.host.out ∧ pfn < w.manager.hostmemPages ∧
      w'.manager.reversedMapPgds 0 = linuxPte pfn ∧
      w'.mem =
        w.mem.writeWords (pfn * coArchPageSize) ptrsPerPte (reversedPageTable w.manager 0) := by
  induction n generalizing w' used with
  | zero =>
    have first : ¬w.manager.hostmemPages ≤ 0 * (ptrsPerPte * ptrsPerPgd) := by
      rw [Nat.zero_mul]
      exact Nat.not_le.mpr nonempty
    rw [allocReversedPgds, allocReversedPgds, Step.andThen_ok] at h
    simp only [first, if_false] at h
    cases hp : coManagerGetPage w with
    | mk result w2 =>
      cases result with
      | error rc =>
        simp only [hp, Prod.mk.injEq] at h
        exact absurd h.1 (coManagerGetPage_error hp).1
      | ok p =>
        simp only [hp, Prod.mk.injEq, true_and] at h
        obtain ⟨rest, -, ne, fresh, below, rfl⟩ := coManagerGetPage_ok hp
        refine ⟨p, ne, fresh, below, ?_, ?_⟩
        · rw [← h.1]
          exact (if_neg ne).symm
        · rw [← h.1]
          rfl
  | succ n ih =>
    rw [allocReversedPgds] at h
    generalize hr : allocReversedPgds (n + 1) (w, 0) = r at h
    obtain ⟨rc, w1, used1⟩ := r
    by_cases ok : rc = .ok
    · subst ok
      obtain ⟨pfn, ne, fresh, below, pgd, mem⟩ := ih hr
      obtain ⟨-, kept, -⟩ := allocReversedPgds_keeps (n + 1) (w, 0)
      rw [hr] at kept
      have done : w1.manager.hostmemPages ≤ (n + 1) * (ptrsPerPte * ptrsPerPgd) := by
        have : w1.manager.hostmemPages = w.manager.hostmemPages := kept
        simp only [ptrsPerPte, ptrsPerPgd]
        omega
      rw [Step.andThen_ok] at h
      simp only [done, if_true, Prod.mk.injEq, true_and] at h
      refine ⟨pfn, ne, fresh, below, ?_, ?_⟩
      · rw [← h.1]
        show (if 0 = n + 1 then 0 else w1.manager.reversedMapPgds 0) = _
        rw [if_neg (by omega)]
        exact pgd
      · rw [← h.1]
        exact mem
    · rw [Step.andThen_of_ne ok, Prod.mk.injEq] at h
      exact absurd h.1 ok

/-- A successful load leaves the page table of the map in place. -/
theorem coManagerAllocReversedPfns_table (hostmem : w.manager.hostmemPages ≤ 2 ^ 20)
    (nonempty : 0 < w.manager.hostmemPages) (h : coManagerAllocReversedPfns w = some (.ok, w')) :
    ∃ table, ReversedTable w' table := by
  have loaded := coManagerAllocReversedPfns_loaded hostmem h
  obtain ⟨w1, w2, w3, used, hostmem1, count1, top, manager3, out3, pgds⟩ :=
    coManagerAllocReversedPfns_loops h
  obtain ⟨pages, hostmem2, count2⟩ := allocTopLevelPages_ok top
  have low := allocTopLevelPages_low top
  obtain ⟨pfns4, hostmem4, count4, -, kept⟩ :=
    allocReversedPgds_keeps reversedMapPgdsCount (w3, 0)
  rw [pgds] at pfns4 hostmem4 count4 kept
  dsimp only at pfns4 hostmem4 count4 kept
  have hostmem3 : w3.manager.hostmemPages = w.manager.hostmemPages := by
    rw [manager3]
    exact hostmem2.trans hostmem1
  have count : w'.manager.reversedPageCount = w.manager.hostmemPages / ptrsPerPte := by
    rw [count4, manager3]
    exact count2.trans count1
  have pfns : w'.manager.reversedMapPfns = w2.manager.reversedMapPfns := by
    rw [pfns4, manager3]
  obtain ⟨table, ne, fresh, below, pgd, mem⟩ :=
    @allocReversedPgds_table 3 used w3 w' (hostmem3 ▸ hostmem) (hostmem3 ▸ nonempty) pgds
  have tableLow : table < 2 ^ 20 := Nat.lt_of_lt_of_le below (hostmem3 ▸ hostmem)
  have pfnLow : ∀ i < w'.manager.reversedPageCount, w'.manager.reversedMapPfns i < 2 ^ 20 := by
    intro i hi
    rw [count] at hi
    rw [pfns]
    exact Nat.lt_of_lt_of_le (low i hi) (hostmem1 ▸ hostmem)
  refine ⟨table, loaded, pfnLow, pgd, ne, tableLow, ?_, ?_⟩
  · intro i hi same
    rw [count] at hi
    refine fresh ?_
    rw [← same, out3, pfns]
    exact pages.out i hi
  · intro j hj
    have inTable : j < ptrsPerPte := by
      rw [count] at hj
      simp only [ptrsPerPte] at hj ⊢
      omega
    have entry : reversedPageTable w3.manager 0 j = linuxPte (w'.manager.reversedMapPfns j) := by
      unfold reversedPageTable linuxPte
      rw [Nat.zero_add, ← pfns4, ← count4, if_neg (Nat.not_le.mpr hj),
        if_neg (loaded.present j hj)]
    rw [mem, ByteMem.readWord_writeWords _ inTable, entry]
    rw [entry]
    exact linuxPte_lt (pfnLow j hj)

theorem coManagerAllocReversedPfns_hostmem (h : coManagerAllocReversedPfns w = some (.ok, w')) :
    w'.manager.hostmemPages = w.manager.hostmemPages := by
  obtain ⟨w1, w2, w3, used, hostmem1, -, top, manager3, -, pgds⟩ :=
    coManagerAllocReversedPfns_loops h
  obtain ⟨-, hostmem2, -⟩ := allocTopLevelPages_ok top
  obtain ⟨-, hostmem4, -⟩ := allocReversedPgds_keeps reversedMapPgdsCount (w3, 0)
  rw [pgds] at hostmem4
  dsimp only at hostmem4
  rw [hostmem4, manager3]
  exact hostmem2.trans hostmem1

/-! ## Stores -/

/-- A call of `co_manager_set_reversed_pfn`. -/
structure SetReversed where
  realPfn : Nat
  pseudoPfn : UInt32

namespace SetReversed

def step (c : SetReversed) (w : World) : World :=
  (coManagerSetReversedPfn c.realPfn c.pseudoPfn.toNat w).2

/-- The map that the calls are to build. -/
def record (c : SetReversed) (map : Nat → Option UInt32) : Nat → Option UInt32 :=
  Function.update map c.realPfn (some c.pseudoPfn)

end SetReversed

/-- After the calls every frame of the host is accepted, the guest finds the value that was set
last for a frame, and no two frames share a word. -/
structure MapsHost (w : World) (calls : List SetReversed) : Prop where
  accepted : ∀ pfn < w.manager.hostmemPages, ∀ pseudoPfn,
    (coManagerSetReversedPfn pfn pseudoPfn (run SetReversed.step calls w)).1 = .ok
  found : ∀ pfn < w.manager.hostmemPages, ∀ pseudoPfn,
    run SetReversed.record calls (fun _ => none) pfn = some pseudoPfn →
      (run SetReversed.step calls w).coPfnPToPp pfn = some pseudoPfn.toNat
  apart : ∀ p < w.manager.hostmemPages, ∀ q < w.manager.hostmemPages, p ≠ q →
    ∀ a b, (run SetReversed.step calls w).reversedSlot p = some a →
      (run SetReversed.step calls w).reversedSlot q = some b → Apart a b

theorem SetReversed.step_manager (c : SetReversed) (w : World) :
    (c.step w).manager = w.manager := by
  unfold SetReversed.step coManagerSetReversedPfn
  split
  · rfl
  · rfl

theorem run_step_manager (calls : List SetReversed) (w : World) :
    (run SetReversed.step calls w).manager = w.manager := by
  induction calls generalizing w with
  | nil => rfl
  | cons c calls ih => exact (ih (c.step w)).trans (c.step_manager w)

/-- The words of the map are those that were set last. -/
def Records (w : World) (map : Nat → Option UInt32) : Prop :=
  ∀ pfn, pfn / ptrsPerPte < w.manager.reversedPageCount → ∀ pseudoPfn,
    map pfn = some pseudoPfn →
      w.mem.readWord (reversedEntry w.manager pfn) = pseudoPfn.toNat

/-- A call changes the word of its own frame. -/
theorem ReversedTable.step {table : Nat} (h : ReversedTable w table) {map : Nat → Option UInt32}
    (records : Records w map) (c : SetReversed) :
    ReversedTable (c.step w) table ∧ Records (c.step w) (c.record map) := by
  unfold SetReversed.step coManagerSetReversedPfn
  by_cases high : w.manager.reversedPageCount ≤ c.realPfn / ptrsPerPte
  · rw [if_pos high]
    refine ⟨h, fun pfn covered pseudoPfn set => ?_⟩
    have other : pfn ≠ c.realPfn := fun same => Nat.not_le.mpr covered (same ▸ high)
    rw [SetReversed.record, Function.update_of_ne other] at set
    exact records pfn covered pseudoPfn set
  rw [if_neg high]
  have covered := Nat.not_le.mp high
  constructor
  · -- the page table is in no page of the map
    have hostmem := h.loaded.hostmem
    have count := h.loaded.count
    refine ⟨⟨hostmem, count, h.loaded.present, h.loaded.out, h.loaded.distinct, h.loaded.pgds⟩,
      h.low, h.pgd, h.present, h.tableLow, h.apart, fun j hj => ?_⟩
    have inTable : j < 1024 := by
      have : j < w.manager.reversedPageCount := hj
      simp only [ptrsPerPte] at count
      omega
    refine Eq.trans ?_ (h.ptes j hj)
    exact readWord_apart _ _ (apart_of_frame_ne (h.apart _ covered) (Nat.mod_lt _ (by decide))
      inTable)
  · intro pfn covered' pseudoPfn set
    show (w.mem.writeWord (reversedEntry w.manager c.realPfn) c.pseudoPfn.toNat).readWord
      (reversedEntry w.manager pfn) = _
    by_cases same : pfn = c.realPfn
    · subst same
      rw [SetReversed.record, Function.update_self] at set
      obtain rfl := Option.some.inj set
      exact ByteMem.readWord_writeWord_self _ _ c.pseudoPfn.toNat_lt
    · rw [SetReversed.record, Function.update_of_ne same] at set
      rw [readWord_apart _ _ (reversed_apart h.loaded (Ne.symm same) covered covered')]
      exact records pfn covered' pseudoPfn set

theorem ReversedTable.run {table : Nat} (h : ReversedTable w table) {map : Nat → Option UInt32}
    (records : Records w map) (calls : List SetReversed) :
    ReversedTable (run SetReversed.step calls w) table ∧
      Records (run SetReversed.step calls w) (run SetReversed.record calls map) := by
  induction calls generalizing w map with
  | nil => exact ⟨h, records⟩
  | cons c calls ih =>
    obtain ⟨next, recorded⟩ := h.step records c
    exact ih next recorded

/-- The reversed map covers the host exactly when its pages do. -/
theorem mapsHost_iff (hostmem : w.manager.hostmemPages ≤ 0x100000)
    (loaded : coManagerAllocReversedPfns w = some (.ok, w')) (calls : List SetReversed) :
    MapsHost w' calls ↔ ptrsPerPte ∣ w.manager.hostmemPages := by
  have same := coManagerAllocReversedPfns_hostmem loaded
  have count := (coManagerAllocReversedPfns_loaded hostmem loaded).count
  have manager := run_step_manager calls w'
  rw [← same]
  constructor
  · intro maps
    by_contra ragged
    have last : w'.manager.hostmemPages / ptrsPerPte * ptrsPerPte < w'.manager.hostmemPages := by
      simp only [ptrsPerPte] at ragged ⊢
      omega
    have accepted := maps.accepted _ last 0
    rw [coManagerSetReversedPfn, manager, count, Nat.mul_div_cancel _ (by decide),
      if_pos (Nat.le_refl _)] at accepted
    cases accepted
  · intro whole
    by_cases empty : w'.manager.hostmemPages = 0
    · have noFrame : ∀ pfn, ¬pfn < w'.manager.hostmemPages := by
        rw [empty]
        exact Nat.not_lt_zero
      exact ⟨fun p hp => absurd hp (noFrame p), fun p hp => absurd hp (noFrame p),
        fun p hp => absurd hp (noFrame p)⟩
    have covered : ∀ pfn < w'.manager.hostmemPages,
        pfn / ptrsPerPte < (run SetReversed.step calls w').manager.reversedPageCount := by
      intro pfn below
      rw [manager, count]
      simp only [ptrsPerPte] at whole ⊢
      omega
    obtain ⟨table, start⟩ :=
      coManagerAllocReversedPfns_table hostmem (same ▸ Nat.pos_of_ne_zero empty) loaded
    obtain ⟨after, records⟩ :=
      @ReversedTable.run w' table start (fun _ => none) (fun _ _ _ unset =>
        absurd unset.symm (Option.some_ne_none _)) calls
    refine ⟨?_, ?_, ?_⟩
    · intro pfn below pseudoPfn
      unfold coManagerSetReversedPfn
      rw [if_neg (Nat.not_le.mpr (covered pfn below))]
    · intro pfn below pseudoPfn set
      unfold World.coPfnPToPp
      rw [after.slot (covered pfn below), Option.map_some,
        records pfn (covered pfn below) pseudoPfn set]
    · intro p hp q hq ne a b atA atB
      rw [after.slot (covered p hp)] at atA
      rw [after.slot (covered q hq)] at atB
      obtain rfl := Option.some.inj atA
      obtain rfl := Option.some.inj atB
      exact reversed_apart after.loaded ne (covered p hp) (covered q hq)

/-- `co_os_physical_memory_pages` rounds the number of pages up to 16 MB, so the map covers every
host. -/
theorem mapsHost_of_physicalMemoryPages {n : Nat}
    (hostmem : w.manager.hostmemPages = coOsPhysicalMemoryPages n)
    (supported : w.manager.hostmemPages ≤ 0x100000)
    (loaded : coManagerAllocReversedPfns w = some (.ok, w')) (calls : List SetReversed) :
    MapsHost w' calls :=
  (mapsHost_iff supported loaded calls).mpr
    (hostmem ▸ ptrsPerPte_dvd_coOsPhysicalMemoryPages n)

/-- The load succeeds on a host that grants the pages. -/
theorem exists_loaded {w : World}
    (ok : (coManagerAllocReversedPfns w).map Prod.fst = some .ok) :
    ∃ w', coManagerAllocReversedPfns w = some (.ok, w') := by
  obtain ⟨⟨rc, w'⟩, result, rfl⟩ := Option.map_eq_some_iff.mp ok
  exact ⟨w', result⟩

/-- A host that reports a little less than 32 MB. -/
theorem mapsHost_of_physicalMemoryPages_evenHost :
    ∃ w', coManagerAllocReversedPfns (smallHost 8192 [] ((List.range' 4096 9).map some)) =
        some (.ok, w') ∧
      MapsHost w' [⟨4097, 40⟩, ⟨8191, 41⟩, ⟨4097, 42⟩] := by
  obtain ⟨w', loaded⟩ := exists_loaded
    (show (coManagerAllocReversedPfns (smallHost 8192 [] ((List.range' 4096 9).map some))).map
      Prod.fst = some .ok by decide +kernel)
  exact ⟨w', loaded,
    mapsHost_of_physicalMemoryPages (n := 8100) (by decide) (by decide) loaded _⟩

/-- With a page count that no host has, one more than a page of the map covers, the last frame would be
refused. -/
theorem raggedHost_refused :
    ∃ w', coManagerAllocReversedPfns (smallHost 1025 [] [some 5, some 6]) = some (.ok, w') ∧
      1024 < w'.manager.hostmemPages ∧ (coManagerSetReversedPfn 1024 7 w').1 = .error ∧
      ¬MapsHost w' [] := by
  obtain ⟨w', loaded⟩ := exists_loaded
    (show (coManagerAllocReversedPfns (smallHost 1025 [] [some 5, some 6])).map Prod.fst =
      some .ok by decide +kernel)
  have hostmem : w'.manager.hostmemPages = 1025 := coManagerAllocReversedPfns_hostmem loaded
  have count := (coManagerAllocReversedPfns_loaded (by decide) loaded).count
  have refused : ∀ pseudoPfn, (coManagerSetReversedPfn 1024 pseudoPfn w').1 = .error := by
    intro pseudoPfn
    rw [coManagerSetReversedPfn, count, hostmem]
    rfl
  refine ⟨w', loaded, by rw [hostmem]; decide, refused 7, ?_⟩
  intro maps
  have accepted := maps.accepted 1024 (by rw [hostmem]; decide) 7
  exact absurd ((refused 7).symm.trans accepted) (by decide)

end CoLinux
