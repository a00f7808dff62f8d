import CoLinux.Kernel.World

/-!
# The reversed map (`kernel/reversedpfns.c`)

The driver keeps, for each host frame, the guest frame it stands for: an array of words spread
over the pages `reversed_map_pfns`, which the guest sees through the page directory entries
`reversed_map_pgds`. The number of those pages is `hostmem_pages / PTRS_PER_PTE` rounded down.
-/

namespace CoLinux

open Lib

/-- The page table entry the driver writes for a frame; 0 stays 0. -/
def linuxPte (pfn : Nat) : Nat :=
  if pfn = 0 then 0 else pfn <<< coArchPageShift % wordSize ||| kernpgTable

/-- `co_os_physical_memory_pages`, which `co_manager_load` stores in `hostmem_pages`: the number that
Windows reports, rounded up to 16 MB. -/
def coOsPhysicalMemoryPages (numberOfPhysicalPages : Nat) : Nat :=
  (numberOfPhysicalPages + 0xfff) % wordSize / 0x1000 * 0x1000

/-- `manager->reversed_map_pgds_count`. -/
def reversedMapPgdsCount : Nat :=
  (coVptrBase - coVptrPhysicalToPseudoPfnMap) / ptrsPerPte / ptrsPerPgd / sizeofPte

def World.setManager (w : World) (m : CoManager) : World := { w with manager := m }

/-- The loop that allocates the first `n` pages of the reversed map. -/
def allocTopLevelPages : Nat → World → Step World
  | 0, w => (.ok, w)
  | n + 1, w => (allocTopLevelPages n w).andThen fun w =>
    match coManagerGetPage w with
    | (.error rc, w) => (rc, w)
    | (.ok pfn, w) =>
      (.ok, w.setManager { w.manager with
        reversedMapPfns := fun i => if i = n then pfn else w.manager.reversedMapPfns i })

/-- The page table of the reversed map's pages from number `used` on. -/
def reversedPageTable (m : CoManager) (used j : Nat) : Nat :=
  if m.reversedPageCount ≤ used + j then 0
  else m.reversedMapPfns (used + j) <<< coArchPageShift % wordSize ||| kernpgTable

/-- The loop over the first `n` page directory entries of the reversed map. The number in the
state counts the pages of the reversed map that have got a page table entry. -/
def allocReversedPgds : Nat → World × Nat → Step (World × Nat)
  | 0, s => (.ok, s)
  | n + 1, s => (allocReversedPgds n s).andThen fun (w, used) =>
    let setPgd (w : World) (pgd : Nat) := w.setManager { w.manager with
      reversedMapPgds := fun i => if i = n then pgd else w.manager.reversedMapPgds i }
    if w.manager.hostmemPages ≤ n * (ptrsPerPte * ptrsPerPgd) then (.ok, setPgd w 0, used)
    else
      match coManagerGetPage w with
      | (.error rc, w) => (rc, w, used)
      | (.ok pfn, w) =>
        let mem := w.mem.writeWords (pfn * coArchPageSize) ptrsPerPte
          (reversedPageTable w.manager used)
        (.ok, setPgd (w.setMem mem) (pfn <<< coArchPageShift % wordSize ||| kernpgTable),
          min (used + ptrsPerPte) w.manager.reversedPageCount)

/-- `co_manager_alloc_reversed_pfns`. When the block for `reversed_map_pgds` is refused the
source goes on and writes through the null pointer: that is `none`. -/
def coManagerAllocReversedPfns (w : World) : Option (Step World) :=
  let w := w.setManager { w.manager with
    reversedPageCount := w.manager.hostmemPages / ptrsPerPte }
  match coOsMalloc w with
  | (false, w) => some (.outOfMemory, w)
  | (true, w) =>
    let top := allocTopLevelPages w.manager.reversedPageCount
      (w.setManager { w.manager with reversedMapPfns := fun _ => 0 })
    if top.1 ≠ .ok then some top
    else
      match coOsMalloc top.2 with
      | (false, _) => none
      | (true, w) =>
        let pgds := allocReversedPgds reversedMapPgdsCount
          (w.setManager { w.manager with reversedMapPgdsCount := reversedMapPgdsCount }, 0)
        some (pgds.1, pgds.2.1)

/-- The physical address of the reversed map's word for `realPfn`. -/
def reversedEntry (m : CoManager) (realPfn : Nat) : Nat :=
  m.reversedMapPfns (realPfn / ptrsPerPte) * coArchPageSize + 4 * (realPfn % ptrsPerPte)

def coManagerSetReversedPfn (realPfn pseudoPfn : Nat) (w : World) : Step World :=
  if w.manager.reversedPageCount ≤ realPfn / ptrsPerPte then (.error, w)
  else (.ok, w.setMem (w.mem.writeWord (reversedEntry w.manager realPfn) pseudoPfn))

/-- A page of the reversed map has no more words than 16 MB have pages. -/
theorem ptrsPerPte_dvd_coOsPhysicalMemoryPages (n : Nat) :
    ptrsPerPte ∣ coOsPhysicalMemoryPages n :=
  Nat.dvd_mul_left_of_dvd (by decide) _

/-! ## Page table entries -/

theorem linuxPte_of_ne {pfn : Nat} (h : pfn ≠ 0) (hlt : pfn < 2 ^ 20) :
    linuxPte pfn = pfn * 4096 + 0x63 := by
  have inRange : pfn <<< coArchPageShift % wordSize = pfn <<< 12 := by
    rw [Nat.shiftLeft_eq]; exact Nat.mod_eq_of_lt (by simp only [coArchPageShift, wordSize]; omega)
  unfold linuxPte
  rw [if_neg h, inRange, ← Nat.shiftLeft_add_eq_or_of_lt (by decide), Nat.shiftLeft_eq]

@[simp] theorem linuxPte_zero : linuxPte 0 = 0 := rfl

theorem linuxPte_lt {pfn : Nat} (hlt : pfn < 2 ^ 20) : linuxPte pfn < 2 ^ 32 := by
  by_cases h : pfn = 0
  · subst h; decide
  · rw [linuxPte_of_ne h hlt]; omega

/-! ## Pages the host grants -/

theorem coManagerGetPage_ok {w w' : World} {pfn : Nat}
    (h : coManagerGetPage w = (.ok pfn, w')) :
    ∃ rest, w.host.answers = some pfn :: rest ∧ pfn ≠ 0 ∧ pfn ∉ w.host.out ∧
      pfn < w.manager.hostmemPages ∧
      w' = w.setHost { w.host with answers := rest, out := pfn :: w.host.out } := by
  unfold coManagerGetPage coOsGetPage at h
  cases answers : w.host.answers with
  | nil => simp [answers] at h
  | cons a rest =>
    cases a with
    | none => simp [answers] at h
    | some p =>
      simp only [answers] at h
      by_cases stale : p = 0 ∨ p ∈ w.host.out
      · simp [stale] at h
      · by_cases high : w.manager.hostmemPages ≤ p
        · simp [stale, high] at h
        · simp only [stale, if_false, setHost_manager, high, Prod.mk.injEq,
            Except.ok.injEq] at h
          obtain ⟨rfl, rfl⟩ := h
          exact ⟨rest, rfl, fun h0 => stale (.inl h0), fun hm => stale (.inr hm), by omega, rfl⟩

theorem coManagerGetPage_error {w w' : World} {rc : CoRc}
    (h : coManagerGetPage w = (.error rc, w')) :
    rc ≠ .ok ∧ ∃ host, w' = w.setHost host ∧ host.mallocs = w.host.mallocs ∧
      (∀ p ∈ w.host.out, p ∈ host.out) ∧ (∀ a ∈ host.answers, a ∈ w.host.answers) := by
  unfold coManagerGetPage coOsGetPage at h
  cases answers : w.host.answers with
  | nil =>
    simp only [answers, Prod.mk.injEq, Except.error.injEq] at h
    obtain ⟨rfl, rfl⟩ := h
    exact ⟨by decide, w.host, rfl, rfl, fun _ hp => hp, by simp [answers]⟩
  | cons a rest =>
    cases a with
    | none =>
      simp only [answers, Prod.mk.injEq, Except.error.injEq] at h
      obtain ⟨rfl, rfl⟩ := h
      exact ⟨by decide, _, rfl, rfl, fun _ hp => hp, fun a ha => by simp [ha]⟩
    | some p =>
      simp only [answers] at h
      by_cases stale : p = 0 ∨ p ∈ w.host.out
      · simp only [stale, if_true, Prod.mk.injEq, Except.error.injEq] at h
        obtain ⟨rfl, rfl⟩ := h
        exact ⟨by decide, _, rfl, rfl, fun _ hp => hp, fun a ha => by simp [ha]⟩
      · by_cases high : w.manager.hostmemPages ≤ p
        · simp only [stale, if_false, setHost_manager, high, if_true, Prod.mk.injEq,
            Except.error.injEq] at h
          obtain ⟨rfl, rfl⟩ := h
          exact ⟨by decide, _, rfl, rfl, fun q hq => List.mem_cons_of_mem _ hq,
            fun a ha => by simp [ha]⟩
        · simp [stale, high] at h

end CoLinux
