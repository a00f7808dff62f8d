import CoLinux.Kernel.Proofs.PagesInv

/-!
# Where the paging invariant starts

`co_manager_alloc_reversed_pfns` leaves a loaded manager, and `alloc_pp_ram_mapping` leaves
the frames of the page tables and no others. Neither clears the page tables: that they are
clear is what remains to be assumed about the host's frames.
-/

namespace CoLinux

open Lib

/-! ## Memory sizes -/

/-- The memory size `co_monitor_create` settles on for a configured number of megabytes. -/
def adjustedMemorySize (mb : Nat) : Nat :=
  (if mb < 8 then 8 else if 984 < mb then 984 else mb) <<< 20

theorem adjustedMemorySize_cases (mb : Nat) :
    ∃ n, 8 ≤ n ∧ n ≤ 984 ∧ adjustedMemorySize mb = n * 1048576 := by
  unfold adjustedMemorySize
  rw [Nat.shiftLeft_eq]
  refine ⟨_, ?_, ?_, rfl⟩ <;> split <;> (try split) <;> omega

/-! ## Loading the manager -/

/-- The first `n` pages of the reversed map have been allocated. -/
structure TopLevelPages (n : Nat) (w : World) : Prop where
  present : ∀ i < n, w.manager.reversedMapPfns i ≠ 0
  out : ∀ i < n, w.manager.reversedMapPfns i ∈ w.host.out
  distinct : ∀ i < n, ∀ j < n,
    w.manager.reversedMapPfns i = w.manager.reversedMapPfns j → i = j

theorem allocTopLevelPages_ok {n : Nat} {w w' : World} (h : allocTopLevelPages n w = (.ok, w')) :
    TopLevelPages n w' ∧ w'.manager.hostmemPages = w.manager.hostmemPages ∧
      w'.manager.reversedPageCount = w.manager.reversedPageCount := by
  induction n generalizing w' with
  | zero =>
    obtain rfl : w = w' := by simpa [allocTopLevelPages] using h
    exact ⟨⟨fun _ h => absurd h (Nat.not_lt_zero _), fun _ h => absurd h (Nat.not_lt_zero _),
      fun _ h => absurd h (Nat.not_lt_zero _)⟩, rfl, rfl⟩
  | succ n ih =>
    rw [allocTopLevelPages] at h
    generalize hr : allocTopLevelPages n w = r at h
    obtain ⟨rc, w1⟩ := r
    by_cases ok : rc = .ok
    · subst ok
      obtain ⟨top, hostmem, count⟩ := ih hr
      rw [Step.andThen_ok] at h
      cases hp : coManagerGetPage w1 with
      | mk result w2 =>
        cases result with
        | error rc =>
          simp only [hp, Prod.mk.injEq] at h
          exact absurd h.1 (coManagerGetPage_error hp).1
        | ok p =>
          simp only [hp, Prod.mk.injEq, true_and] at h
          obtain ⟨rest, -, ne, fresh, -, rfl⟩ := coManagerGetPage_ok hp
          subst h
          refine ⟨⟨fun i hi => ?_, fun i hi => ?_, fun i hi j hj same => ?_⟩, hostmem, count⟩
          · by_cases last : i = n
            · simp [World.setManager, last, ne]
            · simpa [World.setManager, last] using top.present i (by omega)
          · by_cases last : i = n
            · simp [World.setManager, last]
            · simpa [World.setManager, last] using .inr (top.out i (by omega))
          · by_cases li : i = n <;> by_cases lj : j = n
            · omega
            · simp only [World.setManager, li, lj, if_true, if_false, setHost_manager] at same
              exact absurd (top.out j (by omega)) (same ▸ fresh)
            · simp only [World.setManager, li, lj, if_true, if_false, setHost_manager] at same
              exact absurd (top.out i (by omega)) (same ▸ fresh)
            · simp only [World.setManager, li, lj, if_false, setHost_manager] at same
              exact top.distinct i (by omega) j (by omega) same
    · rw [Step.andThen_of_ne ok, Prod.mk.injEq] at h
      exact absurd h.1 ok

/-- The page directory entries of the reversed map leave the pages they point to alone. -/
theorem allocReversedPgds_keeps (n : Nat) (s : World × Nat) :
    let w' := (allocReversedPgds n s).2.1
    w'.manager.reversedMapPfns = s.1.manager.reversedMapPfns ∧
      w'.manager.hostmemPages = s.1.manager.hostmemPages ∧
      w'.manager.reversedPageCount = s.1.manager.reversedPageCount ∧
      w'.manager.reversedMapPgdsCount = s.1.manager.reversedMapPgdsCount ∧
      ∀ q ∈ s.1.host.out, q ∈ w'.host.out := by
  induction n with
  | zero => exact ⟨rfl, rfl, rfl, rfl, fun _ h => h⟩
  | succ n ih =>
    obtain ⟨pfns, hostmem, count, pgds, kept⟩ := ih
    rw [allocReversedPgds]
    generalize allocReversedPgds n s = r at pfns hostmem count pgds kept
    obtain ⟨rc, w1, used⟩ := r
    by_cases ok : rc = .ok
    · subst ok
      rw [Step.andThen_ok]
      by_cases done : w1.manager.hostmemPages ≤ n * (ptrsPerPte * ptrsPerPgd)
      · simp only [done, if_true]
        exact ⟨pfns, hostmem, count, pgds, kept⟩
      · simp only [done, if_false]
        cases hp : coManagerGetPage w1 with
        | mk result w2 =>
          cases result with
          | error rc =>
            obtain ⟨-, host, rfl, -, more, -⟩ := coManagerGetPage_error hp
            exact ⟨pfns, hostmem, count, pgds, fun q hq => more q (kept q hq)⟩
          | ok p =>
            obtain ⟨rest, -, -, -, -, rfl⟩ := coManagerGetPage_ok hp
            exact ⟨pfns, hostmem, count, pgds, fun q hq => List.mem_cons_of_mem _ (kept q hq)⟩
    · rw [Step.andThen_of_ne ok]
      exact ⟨pfns, hostmem, count, pgds, kept⟩

theorem coOsMalloc_kept (w : World) : (coOsMalloc w).2.manager = w.manager ∧
    (coOsMalloc w).2.mem = w.mem ∧ (coOsMalloc w).2.host.out = w.host.out := by
  unfold coOsMalloc
  split
  · exact ⟨rfl, rfl, rfl⟩
  · exact ⟨rfl, rfl, rfl⟩

/-- The two loops of a successful load. -/
theorem coManagerAllocReversedPfns_loops {w w' : World}
    (h : coManagerAllocReversedPfns w = some (.ok, w')) :
    ∃ w1 w2 w3 used,
      w1.manager.hostmemPages = w.manager.hostmemPages ∧
      w1.manager.reversedPageCount = w.manager.hostmemPages / ptrsPerPte ∧
      allocTopLevelPages (w.manager.hostmemPages / ptrsPerPte) w1 = (.ok, w2) ∧
      w3.manager = { w2.manager with reversedMapPgdsCount := reversedMapPgdsCount } ∧
      w3.host.out = w2.host.out ∧
      allocReversedPgds reversedMapPgdsCount (w3, 0) = (.ok, w', used) := by
  unfold coManagerAllocReversedPfns at h
  dsimp only at h
  generalize hw : w.setManager _ = w0 at h
  have hostmem0 : w0.manager.hostmemPages = w.manager.hostmemPages := by rw [← hw]; rfl
  have count0 : w0.manager.reversedPageCount = w.manager.hostmemPages / ptrsPerPte := by
    rw [← hw]; rfl
  obtain ⟨manager1, -, -⟩ := coOsMalloc_kept w0
  cases hm : coOsMalloc w0 with
  | mk granted w1 =>
    rw [hm] at manager1
    cases granted with
    | false => simp [hm] at h
    | true =>
      simp only [hm] at h
      generalize ht : allocTopLevelPages _ _ = top at h
      obtain ⟨rc, w2⟩ := top
      by_cases ok : rc = .ok
      · subst ok
        simp only [not_true_eq_false, if_false, ne_eq] at h
        obtain ⟨manager3, -, out3⟩ := coOsMalloc_kept w2
        cases hm2 : coOsMalloc w2 with
        | mk granted w3 =>
          rw [hm2] at manager3 out3
          cases granted with
          | false => simp [hm2] at h
          | true =>
            simp only [hm2, Option.some.injEq, Prod.mk.injEq] at h
            refine ⟨w1.setManager { w1.manager with reversedMapPfns := fun _ => 0 }, w2,
              w3.setManager { w3.manager with reversedMapPgdsCount := reversedMapPgdsCount }, _,
              ?_, ?_, ?_, ?_, out3, Prod.ext h.1 (Prod.ext h.2 rfl)⟩
            · exact (congrArg CoManager.hostmemPages manager1).trans hostmem0
            · exact (congrArg CoManager.reversedPageCount manager1).trans count0
            · rw [← count0, ← manager1]
              exact ht
            · exact congrArg
                (fun m : CoManager => { m with reversedMapPgdsCount := reversedMapPgdsCount })
                manager3
      · simp only [ne_eq, ok, not_false_eq_true, if_true, Option.some.injEq, Prod.mk.injEq] at h
        exact h.1.elim

/-- A successful load leaves a loaded manager. -/
theorem coManagerAllocReversedPfns_loaded {w w' : World}
    (hostmem : w.manager.hostmemPages ≤ 2 ^ 20)
    (h : coManagerAllocReversedPfns w = some (.ok, w')) : ManagerLoaded w' := by
  obtain ⟨w1, w2, w3, used, hostmem1, count1, top, manager3, out3, pgds⟩ :=
    coManagerAllocReversedPfns_loops h
  obtain ⟨pages, hostmem2, count2⟩ := allocTopLevelPages_ok top
  obtain ⟨pfns4, hostmem4, count4, pgds4, kept⟩ :=
    allocReversedPgds_keeps reversedMapPgdsCount (w3, 0)
  rw [pgds] at pfns4 hostmem4 count4 pgds4 kept
  dsimp only at pfns4 hostmem4 count4 pgds4 kept
  rw [manager3] at pfns4 hostmem4 count4 pgds4
  have hostmem' : w'.manager.hostmemPages = w.manager.hostmemPages :=
    hostmem4.trans (hostmem2.trans hostmem1)
  have count : w'.manager.reversedPageCount = w.manager.hostmemPages / ptrsPerPte :=
    count4.trans (count2.trans count1)
  refine ⟨hostmem' ▸ hostmem, by rw [count, hostmem'], ?_, ?_, ?_, pgds4⟩
  · rw [count, pfns4]
    exact pages.present
  · rw [count, pfns4]
    exact fun i hi => kept _ (out3 ▸ pages.out i hi)
  · rw [count, pfns4]
    exact pages.distinct

/-! ## The page tables of pseudo physical RAM -/

/-- What the walk over the page tables has done before guest address `o`: it has recorded a
frame for every page below `o`, and for no page outside the page tables. -/
structure TablesUpTo (w0 : World) (o : Nat) (w : World) : Prop where
  manager : w.manager = w0.manager
  monitor : ∃ groups blocks present, w.monitor =
    { w0.monitor with ppPfns := groups, blocksAllocated := blocks, hasPpPfns := present }
  mem : w.mem = w0.mem
  kept : ∀ q ∈ w0.host.out, q ≠ 0 → q ∈ w.host.out
  answers : ∀ a ∈ w.host.answers, a ∈ w0.host.answers
  frames : FramesOk w
  recorded : ∀ x, coVptrPseudoRamPageTables ≤ x → x < o → w.ppPfn (x / 4096) ≠ 0
  onlyTables : ∀ n, w.ppPfn n ≠ 0 → 0xfeb00 ≤ n ∧ n < 0xfec00

theorem TablesUpTo.loaded {w0 w : World} {o : Nat} (h : TablesUpTo w0 o w)
    (loaded : ManagerLoaded w0) : ManagerLoaded w := by
  obtain ⟨hostmem, count, present, out, distinct, pgds⟩ := loaded
  constructor <;> rw [h.manager]
  · exact hostmem
  · exact count
  · exact present
  · exact fun i hi => h.kept _ (out i hi) (present i hi)
  · exact distinct
  · exact pgds

/-- One part of the walk, all of it on the page of `o`. -/
theorem TablesUpTo.turn {w0 w : World} {o n : Nat} (d : Nat) (loaded : ManagerLoaded w0)
    (lo : coVptrPseudoRamPageTables ≤ o) (hi : o + n ≤ 0xfec00000) (pos : 0 < n)
    (inPage : o % 4096 + n ≤ 4096) (h : TablesUpTo w0 o w)
    (ok : (scanPfnsSplitCallback none true o n (w, d)).1 = .ok) :
    TablesUpTo w0 (o + n) (scanPfnsSplitCallback none true o n (w, d)).2.1 := by
  obtain ⟨w1, recorded, result⟩ := scanPfnsSplitCallback_ok ok
  rw [result, callScanFunc]
  have page : 0xfeb00 ≤ o / 4096 ∧ o / 4096 < 0xfec00 := by
    simp only [coVptrPseudoRamPageTables, coVptrBase] at lo
    omega
  obtain ⟨groups, blocks, present, hm⟩ := h.monitor
  obtain ⟨manager, groups', blocks', hm'⟩ := recorded.sameMachine
  refine ⟨manager.trans h.manager, ⟨groups', blocks', present, by rw [hm', hm]⟩,
    recorded.mem.trans h.mem, fun q hq ne => recorded.out (h.kept q hq ne) ne,
    fun a ha => h.answers a (recorded.answers a ha),
    recorded.framesOk (h.loaded loaded) h.frames, fun x lo hi => ?_, fun m hm => ?_⟩
  · by_cases before : x < o
    · have was := h.recorded x lo before
      rwa [recorded.kept (.inl was)]
    · rw [show x / 4096 = o / 4096 by omega]
      exact recorded.ppPfn_ne
  · by_cases same : m = o / 4096
    · exact same ▸ page
    · rw [recorded.kept (.inr same)] at hm
      exact h.onlyTables m hm

/-- The walk over the page tables records their pages. -/
theorem coMonitorScanAndCreatePfns_ok {w0 w w' : World} {o n : Nat} (loaded : ManagerLoaded w0)
    (lo : coVptrPseudoRamPageTables ≤ o) (hi : o + n ≤ 0xfec00000) (h : TablesUpTo w0 o w)
    (ok : coMonitorScanAndCreatePfns o n w = (.ok, w')) : TablesUpTo w0 (o + n) w' := by
  have rule := @coSplit_rule _ (scanPfnsSplitCallback none true)
    (fun o s => TablesUpTo w0 o s.1) (fun _ => True) o n
    (fun o' k s h1 h2 h3 h4 hp =>
      ⟨fun ok => TablesUpTo.turn s.2 loaded (Nat.le_trans lo h1) (by omega) h3 h4 hp ok,
        fun _ => trivial⟩)
    (by simp only [wordSize]; omega) (w, 0) h
  simp only [coMonitorScanAndCreatePfns, coManagerScanPfnsAndCallback, Prod.mk.injEq] at ok
  rw [← ok.2]
  exact rule.1 ok.1

/-- The page table sizes `alloc_pp_ram_mapping` computes add up to one entry for each page. -/
theorem pageTablesSize (size : Nat) (whole : size % 4096 = 0) :
    fullPageTablesSize size + partialPageTableSize size = 4 * (size / 4096) := by
  simp only [fullPageTablesSize, partialPageTableSize, coArchPageSize, coArchPmdSize]
  omega

theorem scanPageTables_ok {w w' : World} (loaded : ManagerLoaded w)
    (start : TablesUpTo w coVptrPseudoRamPageTables w) (whole : w.monitor.memorySize % 4096 = 0)
    (size : w.ramPages ≤ 251904) (ok : scanPageTables w = (.ok, w')) :
    TablesUpTo w (coVptrPseudoRamPageTables + 4 * w.ramPages) w' := by
  have total := pageTablesSize w.monitor.memorySize whole
  have bound : coVptrPseudoRamPageTables + 4 * w.ramPages ≤ 0xfec00000 := by
    simp only [coVptrPseudoRamPageTables, coVptrBase]
    omega
  rw [← World.ramPages] at total
  unfold scanPageTables at ok
  generalize hr : coMonitorScanAndCreatePfns _ _ w = r at ok
  obtain ⟨rc, w1⟩ := r
  by_cases first : rc = .ok
  · subst first
    have full := coMonitorScanAndCreatePfns_ok loaded (Nat.le_refl _) (by omega) start hr
    obtain ⟨groups, blocks, present, hm⟩ := full.monitor
    have same : w1.monitor.memorySize = w.monitor.memorySize := by rw [hm]
    rw [Step.andThen_ok, same] at ok
    by_cases last : partialPageTableSize w.monitor.memorySize = 0
    · rw [if_neg (by simpa using last), Prod.mk.injEq] at ok
      rw [← ok.2, ← total, last]
      exact full
    · rw [if_pos last] at ok
      rw [← total, ← Nat.add_assoc]
      exact coMonitorScanAndCreatePfns_ok loaded (by omega) (by omega) full ok
  · rw [Step.andThen_of_ne first, Prod.mk.injEq] at ok
    exact absurd ok.1 first

theorem coMonitorMalloc_cases (w : World) :
    ∃ blocks mallocs, (coMonitorMalloc w).2 = { w with
      monitor := { w.monitor with blocksAllocated := blocks }
      host := { w.host with mallocs := mallocs } } := by
  unfold coMonitorMalloc coOsMalloc
  cases w.host.mallocs with
  | nil => exact ⟨_, _, rfl⟩
  | cons granted rest => cases granted <;> exact ⟨_, _, rfl⟩

/-- What `alloc_pp_ram_mapping` leaves when it succeeds on a loaded manager: the pages of the
page tables, their contents as the host left them, and nothing else. -/
structure RamMapped (w0 w : World) : Prop where
  loaded : ManagerLoaded w
  frames : FramesOk w
  mem : w.mem = w0.mem
  manager : w.manager = w0.manager
  monitor : ∃ groups blocks present, w.monitor =
    { w0.monitor with ppPfns := groups, blocksAllocated := blocks, hasPpPfns := present }
  answers : ∀ a ∈ w.host.answers, a ∈ w0.host.answers
  size : w.ramPages ≤ 251904
  tables : ∀ v < w.ramPages, w.ppPfn (tablePage v) ≠ 0
  onlyTables : ∀ n, w.ppPfn n ≠ 0 → 0xfeb00 ≤ n ∧ n < 0xfec00

theorem allocPpRamMapping_ok {w0 w : World} {mb : Nat} (loaded : ManagerLoaded w0)
    (size : w0.monitor.memorySize = adjustedMemorySize mb)
    (ok : allocPpRamMapping w0 = (.ok, w)) : RamMapped w0 w := by
  obtain ⟨n, lo, hi, hn⟩ := adjustedMemorySize_cases mb
  unfold allocPpRamMapping at ok
  obtain ⟨blocks, mallocs, hw⟩ := coMonitorMalloc_cases w0
  generalize coMonitorMalloc w0 = r at hw ok
  obtain ⟨rc, w1⟩ := r
  by_cases granted : rc = .ok
  · subst granted
    rw [Step.andThen_ok] at ok
    dsimp only at hw ok
    generalize hw2 : ({ w1 with monitor := _ } : World) = w2 at ok
    have size2 : w2.monitor.memorySize = n * 1048576 := by rw [← hw2, hw, ← hn, ← size]
    have empty : ∀ n, w2.ppPfn n = 0 := fun n => by rw [← hw2]; rfl
    have loaded2 : ManagerLoaded w2 := by
      obtain ⟨hostmem, count, present, out, distinct, pgds⟩ := loaded
      rw [← hw2, hw]
      exact ⟨hostmem, count, present, out, distinct, pgds⟩
    have start : TablesUpTo w2 coVptrPseudoRamPageTables w2 := by
      refine ⟨rfl, ⟨_, _, _, rfl⟩, rfl, fun _ h _ => h, fun _ h => h, ⟨?_, ?_, ?_, ?_⟩, ?_, ?_⟩
      · exact fun n hn => absurd (empty n) hn
      · exact fun n => by rw [empty]; decide
      · exact fun n _ hn _ => absurd (empty n) hn
      · exact fun n hn => absurd (empty n) hn
      · exact fun x lo hi => absurd lo (Nat.not_le.mpr hi)
      · exact fun n hn => absurd (empty n) hn
    have pages : w2.ramPages = n * 256 := by
      rw [World.ramPages, size2]
      omega
    by_cases done : (scanPageTables w2).1 = .ok
    · rw [if_pos done] at ok
      have tables := scanPageTables_ok loaded2 start (by rw [size2]; omega) (by omega) ok
      obtain ⟨groups, blocks', present, hm⟩ := tables.monitor
      have size' : w.monitor.memorySize = w0.monitor.memorySize := by
        rw [hm, size2, size, hn]
      have pages' : w.ramPages = n * 256 := by
        rw [World.ramPages, size', size, hn]
        omega
      refine ⟨tables.loaded loaded2, tables.frames, ?_, ?_, ⟨groups, blocks', present, ?_⟩,
        fun a ha => ?_, by omega, fun v hv => ?_, tables.onlyTables⟩
      · rw [tables.mem, ← hw2, hw]
      · rw [tables.manager, ← hw2, hw]
      · rw [hm, ← hw2, hw]
      · have := tables.answers a ha
        rw [← hw2, hw] at this
        exact this
      · have page : (coVptrPseudoRamPageTables + 4 * v) / 4096 = tablePage v := by
          simp only [coVptrPseudoRamPageTables, coVptrBase, tablePage]
          omega
        rw [← page]
        exact tables.recorded _ (Nat.le_add_right _ _) (by omega)
    · rw [if_neg done, Prod.mk.injEq] at ok
      exact absurd ok.1 done
  · rw [Step.andThen_of_ne granted, Prod.mk.injEq] at ok
    exact absurd ok.1 granted

/-- No page of RAM has a frame yet. -/
theorem RamMapped.free {w0 w : World} (h : RamMapped w0 w) {v : Nat} (hv : v < w.ramPages) :
    w.ppPfn (ramPage v) = 0 := by
  refine Classical.byContradiction fun hn => ?_
  have table := h.onlyTables _ hn
  have size := h.size
  unfold ramPage at table
  omega

/-- A host that counts its pages in units of 16 MB hands out frames that the reversed map covers. -/
theorem RamMapped.covered {w0 w : World} {n : Nat} (h : RamMapped w0 w)
    (hostmem : w0.manager.hostmemPages = coOsPhysicalMemoryPages n) : w.Covered := by
  intro p _ low
  have whole := ptrsPerPte_dvd_coOsPhysicalMemoryPages n
  rw [← hostmem, ← h.manager] at whole
  rw [h.loaded.count]
  simp only [ptrsPerPte] at whole ⊢
  omega

/-- The invariant starts to hold when the host hands out covered frames from then on. -/
theorem RamMapped.inv {w0 w : World} (h : RamMapped w0 w) (covered : w.Covered) : PagesInv w :=
  ⟨h.loaded, h.frames, h.size, h.tables, covered, fun _ hv =>
    ⟨fun hn => absurd (h.free hv) hn, fun hn => absurd (h.free hv) hn,
      fun hn => absurd (h.free hv) hn⟩⟩

end CoLinux
