import CoLinux.Kernel.Proofs.GuestMapped

/-!
# `guest_address_space_init` establishes `GuestMapped`

Every store of the init function but one goes to a page that already has a frame, so its result
is an equation. The exception records the frame of the self map. The memory it leaves is a
composition of stores into two frames, read back entry by entry.
-/

namespace CoLinux

open Lib

variable {w w' : World} {p q i k n : Nat} {f : Nat → Nat}

/-! ## Words inside frames -/

theorem readWord_otherFrame (m : ByteMem) (ne : p ≠ q) (h : i + n ≤ 1024) (hk : k < 1024) :
    (m.writeWords (p * 4096 + 4 * i) n f).readWord (q * 4096 + 4 * k) =
      m.readWord (q * 4096 + 4 * k) :=
  m.readWord_writeWords_outside f (by omega)

theorem readWord_otherIndex (m : ByteMem) (h : k < i ∨ i + n ≤ k) :
    (m.writeWords (p * 4096 + 4 * i) n f).readWord (p * 4096 + 4 * k) =
      m.readWord (p * 4096 + 4 * k) :=
  m.readWord_writeWords_outside f (by omega)

theorem readWord_index (m : ByteMem) (h : k < n) (hf : f k < 2 ^ 32) :
    (m.writeWords (p * 4096 + 4 * i) n f).readWord (p * 4096 + 4 * (i + k)) = f k := by
  rw [show p * 4096 + 4 * (i + k) = p * 4096 + 4 * i + 4 * k by omega]
  exact m.readWord_writeWords h hf

/-! ## The single calls -/

/-- Entries written from index `i` of a recorded page on. -/
theorem coMonitorCreatePtes_page {page address : Nat} (source : World → Nat → Nat)
    (hp : w.ppPfn page ≠ 0) (ha : address = page * 4096 + 4 * i) (low : page < 2 ^ 20)
    (hn : n ≠ 0) (h : i + n ≤ 1024) :
    coMonitorCreatePtes address (4 * n) source w =
      (.ok, w.setMem (w.mem.writeWords (w.ppPfn page * 4096 + 4 * i) n
        fun j => linuxPte (source w j))) := by
  have number : address / coArchPageSize = page := by
    simp only [coArchPageSize]
    omega
  have offset : address % 4096 = 4 * i := by omega
  rw [coMonitorCreatePtes_recorded source (by rwa [number]) (by simp only [wordSize]; omega)
    (by omega) (by omega), number, offset, show 4 * n / 4 = n by omega]

/-- One entry of the self map. -/
theorem coMonitorCreatePtes_selfMap {address : Nat} (i pfn : Nat) (hp : w.ppPfn selfMapPage ≠ 0)
    (ha : address = selfMapPage * 4096 + 4 * i) (h : i < 1024) :
    coMonitorCreatePtes address sizeofPte (fun _ _ => pfn) w =
      (.ok, w.setMem (w.mem.writeWords (w.ppPfn selfMapPage * 4096 + 4 * i) 1
        fun _ => linuxPte pfn)) :=
  coMonitorCreatePtes_page (fun _ _ => pfn) hp ha (by decide) Nat.one_ne_zero h

/-- Words copied to index `i` of a recorded page. -/
theorem coMonitorCopyAndCreatePfns_page {page address : Nat} (hp : w.ppPfn page ≠ 0)
    (ha : address = page * 4096 + 4 * i) (low : page < 2 ^ 20) (hn : n ≠ 0) (h : i + n ≤ 1024) :
    coMonitorCopyAndCreatePfns address (4 * n) (ByteMem.wordsBytes f) w =
      (.ok, w.setMem (w.mem.writeWords (w.ppPfn page * 4096 + 4 * i) n f)) := by
  have number : address / coArchPageSize = page := by
    simp only [coArchPageSize]
    omega
  have offset : address % coArchPageSize = 4 * i := by
    simp only [coArchPageSize]
    omega
  have group : allocPpGroup .error (page / ptrsPerPte) w = (.ok, w) := by
    rw [allocPpGroup, if_pos (ppPfn_group hp)]
  unfold coMonitorCopyAndCreatePfns coManagerScanPfnsAndCallback
  rw [coSplit_onePage _ (by simp only [wordSize]; omega) (by omega) (by omega)]
  simp [scanPfnsSplitCallback, number, offset, group, recordedOrNewPfn, hp, callScanFunc,
    copyCallback, ByteMem.copyBytes_wordsBytes]

/-- Writing a whole page of entries records a frame for the page first. -/
theorem coMonitorCreatePtes_newPage {page : Nat} {source : World → Nat → Nat}
    (low : page < 2 ^ 20)
    (ok : (coMonitorCreatePtes (page * 4096) coArchPageSize source w).1 = .ok) :
    ∃ w', Recorded w page w' ∧ (coMonitorCreatePtes (page * 4096) coArchPageSize source w).2 =
      w'.setMem (w'.mem.writeWords (w'.ppPfn page * 4096 + 4 * 0) 1024
        fun j => linuxPte (source w' j)) := by
  have number : page * 4096 / 4096 = page := by omega
  have offset : page * 4096 % coArchPageSize = 0 := by
    simp only [coArchPageSize]
    omega
  unfold coMonitorCreatePtes coManagerScanPfnsAndCallback at ok ⊢
  rw [coSplit_onePage _ (by simp only [wordSize]; omega) (by decide)
    (by simp only [coArchPageSize]; omega)] at ok ⊢
  obtain ⟨w', recorded, result⟩ := scanPfnsSplitCallback_ok ok
  rw [number] at recorded result
  refine ⟨w', recorded, ?_⟩
  dsimp only
  rw [result]
  simp only [callScanFunc, createPtesCallback, offset, Nat.add_zero, Nat.mul_zero, Nat.zero_add]
  rfl

/-- The loop over the IO area writes one entry for each page. -/
theorem mapIoBuffer_eq (virtToPhys : Nat → Nat) {host : Nat} (hp : w.ppPfn selfMapPage ≠ 0)
    (h : i + n ≤ 1024) :
    mapIoBuffer virtToPhys n (4 * i) host w =
      (.ok, w.setMem (w.mem.writeWords (w.ppPfn selfMapPage * 4096 + 4 * i) n
        fun j => linuxPte (virtToPhys (host + 4096 * j) / 4096))) := by
  induction n generalizing i host w with
  | zero =>
    have nothing : ∀ m : ByteMem, m.writeWords (w.ppPfn selfMapPage * 4096 + 4 * i) 0
        (fun j => linuxPte (virtToPhys (host + 4096 * j) / 4096)) = m := fun m => by
      funext x
      unfold ByteMem.writeWords
      rw [if_neg (by omega)]
    rw [mapIoBuffer, nothing]
    rfl
  | succ n ih =>
    have one := coMonitorCreatePtes_selfMap i (virtToPhys host / coArchPageSize) hp
      (show coVptrSelfMap + 4 * i = selfMapPage * 4096 + 4 * i from rfl) (by omega)
    rw [mapIoBuffer, one, Step.andThen_ok, show 4 * i + sizeofPte = 4 * (i + 1) from rfl,
      ih (by exact hp) (by omega), ByteMem.writeWords_succ w.mem _ n]
    have others : (fun j => linuxPte (virtToPhys (host + coArchPageSize + 4096 * j) / 4096)) =
        fun j => linuxPte (virtToPhys (host + 4096 * (j + 1)) / 4096) := by
      funext j
      rw [coArchPageSize, show host + 4096 + 4096 * j = host + 4096 * (j + 1) by omega]
    simp only [others, setMem_mem, setMem_setMem, ppPfn_setMem, ByteMem.writeWord, Nat.mul_zero,
      Nat.add_zero, show 4 * (i + 1) = 4 * i + 4 by omega, ← Nat.add_assoc]

/-! ## The whole function -/

/-- The memory `initPageTables` leaves: stores into the page directory `g` and into the self
map `s`, in the order of the source. -/
def initStores (virtToPhys : Nat → Nat) (w : World) (pfns pfns' : Nat → Nat) (g s : Nat) : ByteMem :=
  ((((((w.mem.writeWords (g * 4096 + 4 * 0) 1024 fun i => linuxPte (pfns i)).writeWords
    (g * 4096 + 4 * 1019) 4 w.manager.reversedMapPgds).writeWords
    (s * 4096 + 4 * 0) 1024 fun i => linuxPte (pfns' i)).writeWords
    (g * 4096 + 4 * 1018) 1 fun _ => linuxPte s).writeWords
    (s * 4096 + 4 * 767) 1 fun _ => linuxPte (virtToPhys w.monitor.passagePage / 4096)).writeWords
    (s * 4096 + 4 * 0) 1 fun _ => linuxPte s).writeWords
    (s * 4096 + 4 * 512) 16 fun k => linuxPte (virtToPhys (w.monitor.ioBuffer + 4096 * k) / 4096)

theorem initPageTables_eq {virtToPhys : Nat → Nat} (pgds : w.manager.reversedMapPgdsCount = 4)
    (aligned : w.monitor.kernelSwapperPgDir = w.swapperPage * 4096)
    (low : w.swapperPage < 2 ^ 20) (directory : w.ppPfn w.swapperPage ≠ 0)
    (ok : (initPageTables virtToPhys w).1 = .ok) :
    ∃ m w', Recorded (w.setMem m) selfMapPage w' ∧ (initPageTables virtToPhys w).2 = w'.setMem
      (initStores virtToPhys w (ppPagetablesPfns w) (ppPagetablesPfns w')
        (w.ppPfn w.swapperPage) (w'.ppPfn selfMapPage)) := by
  have entries : coMonitorCreatePtes w.monitor.kernelSwapperPgDir coArchPageSize
      ppPagetablesPfns w = (.ok, w.setMem (w.mem.writeWords
        (w.ppPfn w.swapperPage * 4096 + 4 * 0) 1024 fun i => linuxPte (ppPagetablesPfns w i))) :=
    coMonitorCreatePtes_page (i := 0) (n := 1024) _ directory (by simpa using aligned) low
      (by decide) (by decide)
  unfold initPageTables at ok ⊢
  dsimp only at ok ⊢
  rw [entries, Step.andThen_ok] at ok ⊢
  generalize hw1 : w.setMem _ = w1 at ok ⊢
  have same1 : w1.ppPfn = w.ppPfn ∧ w1.manager = w.manager ∧ w1.monitor = w.monitor := by
    rw [← hw1, setMem_ppPfn, setMem_manager, setMem_monitor]
    exact ⟨rfl, rfl, rfl⟩
  have inside {a : Nat} (ha : pgdOffset a < 4096) :
      (w.monitor.kernelSwapperPgDir + pgdOffset a) % wordSize =
        w.monitor.kernelSwapperPgDir + pgdOffset a := by
    rw [aligned]
    exact Nat.mod_eq_of_lt (by simp only [wordSize]; omega)
  have copied : coMonitorCopyAndCreatePfns
      ((w.monitor.kernelSwapperPgDir + pgdOffset coVptrPhysicalToPseudoPfnMap) % wordSize)
      (4 * w1.manager.reversedMapPgdsCount) (ByteMem.wordsBytes w1.manager.reversedMapPgds) w1 =
        (.ok, w1.setMem (w1.mem.writeWords (w.ppPfn w.swapperPage * 4096 + 4 * 1019) 4
          w.manager.reversedMapPgds)) := by
    rw [same1.2.1, pgds, ← same1.1]
    rw [inside (by decide)]
    exact coMonitorCopyAndCreatePfns_page (by rwa [same1.1])
      (by rw [aligned, show pgdOffset coVptrPhysicalToPseudoPfnMap = 4 * 1019 from rfl]) low
      (by decide) (by decide)
  rw [copied, Step.andThen_ok] at ok ⊢
  generalize hw2 : w1.setMem _ = w2 at ok ⊢
  have same2 : w2.ppPfn = w.ppPfn ∧ w2.manager = w.manager ∧ w2.monitor = w.monitor := by
    rw [← hw2, setMem_ppPfn, setMem_manager, setMem_monitor]
    exact same1
  have allocates : (coMonitorCreatePtes coVptrSelfMap coArchPageSize ppPagetablesPfns w2).1 =
      .ok := by
    refine Classical.byContradiction fun failed => ?_
    rw [Step.andThen_of_ne failed] at ok
    exact failed ok
  obtain ⟨w3, recorded, stored⟩ : ∃ w3, Recorded w2 selfMapPage w3 ∧
      (coMonitorCreatePtes coVptrSelfMap coArchPageSize ppPagetablesPfns w2).2 =
        w3.setMem (w3.mem.writeWords (w3.ppPfn selfMapPage * 4096 + 4 * 0) 1024
          fun j => linuxPte (ppPagetablesPfns w3 j)) :=
    coMonitorCreatePtes_newPage (by decide) allocates
  have machine : w3.manager = w.manager ∧ w3.monitor.passagePage = w.monitor.passagePage ∧
      w3.monitor.ioBuffer = w.monitor.ioBuffer := by
    obtain ⟨manager, groups, blocks, hm⟩ := recorded.sameMachine
    rw [manager, hm, same2.2.1, same2.2.2]
    exact ⟨rfl, rfl, rfl⟩
  have selfMap := recorded.ppPfn_ne
  have directory3 : w3.ppPfn w.swapperPage = w.ppPfn w.swapperPage := by
    rw [recorded.kept (.inl (by rwa [same2.1])), same2.1]
  rw [Step.eq_of_ok allocates, Step.andThen_ok, stored] at ok ⊢
  generalize hw4 : w3.setMem _ = w4 at ok ⊢
  have same4 : w4.ppPfn = w3.ppPfn ∧ w4.monitor = w3.monitor := by
    rw [← hw4, setMem_ppPfn, setMem_monitor]
    exact ⟨rfl, rfl⟩
  have get : coMonitorGetPfn coVptrSelfMap w4 = .ok (w3.ppPfn selfMapPage) := by
    have page : coVptrSelfMap / coArchPageSize = selfMapPage := rfl
    rw [coMonitorGetPfn, page, if_neg, same4.1]
    rw [Bool.not_eq_true, Option.isNone_eq_false_iff]
    exact ppPfn_group (by rwa [same4.1])
  rw [get] at ok ⊢
  dsimp only at ok ⊢
  have selfMapPgd : coMonitorCreatePtes
      ((w.monitor.kernelSwapperPgDir + pgdOffset coVptrSelfMap) % wordSize) sizeofPte
      (fun _ _ => w3.ppPfn selfMapPage) w4 =
        (.ok, w4.setMem (w4.mem.writeWords (w.ppPfn w.swapperPage * 4096 + 4 * 1018) 1
          fun _ => linuxPte (w3.ppPfn selfMapPage))) := by
    rw [← directory3, ← same4.1]
    rw [inside (by decide)]
    exact coMonitorCreatePtes_page (n := 1) _ (by rwa [same4.1, directory3])
      (by rw [aligned, show pgdOffset coVptrSelfMap = 4 * 1018 from rfl]) low
      (by decide) (by decide)
  rw [selfMapPgd, Step.andThen_ok] at ok ⊢
  generalize hw5 : w4.setMem _ = w5 at ok ⊢
  have same5 : w5.ppPfn = w3.ppPfn ∧ w5.monitor = w3.monitor := by
    rw [← hw5, setMem_ppPfn, setMem_monitor]
    exact same4
  have passage : coMonitorCreatePtes (coVptrSelfMap + pteOffset coVptrPassagePage) sizeofPte
      (fun _ _ => virtToPhys w5.monitor.passagePage / coArchPageSize) w5 =
        (.ok, w5.setMem (w5.mem.writeWords (w3.ppPfn selfMapPage * 4096 + 4 * 767) 1
          fun _ => linuxPte (virtToPhys w.monitor.passagePage / 4096))) := by
    rw [same5.2, machine.2.1, ← same5.1]
    exact coMonitorCreatePtes_selfMap 767 _ (by rwa [same5.1]) (by decide) (by decide)
  rw [passage, Step.andThen_ok] at ok ⊢
  generalize hw6 : w5.setMem _ = w6 at ok ⊢
  have same6 : w6.ppPfn = w3.ppPfn ∧ w6.monitor = w3.monitor := by
    rw [← hw6, setMem_ppPfn, setMem_monitor]
    exact same5
  have self : coMonitorCreatePtes coVptrSelfMap sizeofPte
      (fun _ _ => w3.ppPfn selfMapPage) w6 =
        (.ok, w6.setMem (w6.mem.writeWords (w3.ppPfn selfMapPage * 4096 + 4 * 0) 1
          fun _ => linuxPte (w3.ppPfn selfMapPage))) := by
    rw [← same6.1]
    exact coMonitorCreatePtes_selfMap 0 _ (by rwa [same6.1]) (by decide) (by decide)
  rw [self, Step.andThen_ok] at ok ⊢
  generalize hw7 : w6.setMem _ = w7 at ok ⊢
  have same7 : w7.ppPfn = w3.ppPfn ∧ w7.monitor = w3.monitor := by
    rw [← hw7, setMem_ppPfn, setMem_monitor]
    exact same6
  have io : mapIoBuffer virtToPhys (coVptrIoAreaSize / coArchPageSize)
      (pteOffset coVptrIoAreaStart) w7.monitor.ioBuffer w7 =
        (.ok, w7.setMem (w7.mem.writeWords (w3.ppPfn selfMapPage * 4096 + 4 * 512) 16
          fun j => linuxPte (virtToPhys (w.monitor.ioBuffer + 4096 * j) / 4096))) := by
    rw [same7.2, machine.2.2, ← same7.1]
    rw [show coVptrIoAreaSize / coArchPageSize = 16 by decide,
      show pteOffset coVptrIoAreaStart = 4 * 512 by decide]
    exact mapIoBuffer_eq virtToPhys (by rwa [same7.1]) (by decide)
  rw [io] at ok ⊢
  refine ⟨_, w3, by rw [← hw2, ← hw1, setMem_setMem] at recorded; exact recorded, ?_⟩
  rw [← hw7, ← hw6, ← hw5, ← hw4]
  simp only [setMem_mem, setMem_setMem]
  rw [recorded.mem, ← hw2, ← hw1]
  rfl

/-! ## Reading the entries back -/

section InitStores
variable {virtToPhys : Nat → Nat} {pfns pfns' : Nat → Nat} {g s : Nat}

/-- Other frames are as they were. -/
theorem initStores_other (hg : g ≠ q) (hs : s ≠ q) (hk : k < 1024) :
    (initStores virtToPhys w pfns pfns' g s).readWord (q * 4096 + 4 * k) =
      w.mem.readWord (q * 4096 + 4 * k) := by
  unfold initStores
  rw [readWord_otherFrame _ hs (by decide) hk, readWord_otherFrame _ hs (by decide) hk,
    readWord_otherFrame _ hs (by decide) hk, readWord_otherFrame _ hg (by decide) hk,
    readWord_otherFrame _ hs (by decide) hk, readWord_otherFrame _ hg (by decide) hk,
    readWord_otherFrame _ hg (by decide) hk]

/-- The first entries of the page directory come from the first store. -/
theorem initStores_directory (ne : s ≠ g) (hk : k < 1018) (low : pfns k < 2 ^ 20) :
    (initStores virtToPhys w pfns pfns' g s).readWord (g * 4096 + 4 * k) = linuxPte (pfns k) := by
  have hk' : k < 1024 := by omega
  have first := readWord_index w.mem (p := g) (i := 0) (n := 1024)
    (f := fun i => linuxPte (pfns i)) hk' (linuxPte_lt low)
  rw [Nat.zero_add] at first
  unfold initStores
  rw [readWord_otherFrame _ ne (by decide) hk', readWord_otherFrame _ ne (by decide) hk',
    readWord_otherFrame _ ne (by decide) hk', readWord_otherIndex _ (.inl (by omega)),
    readWord_otherFrame _ ne (by decide) hk', readWord_otherIndex _ (.inl (by omega)), first]

theorem initStores_selfMapPgd (ne : s ≠ g) (low : s < 2 ^ 20) :
    (initStores virtToPhys w pfns pfns' g s).readWord (g * 4096 + 4 * 1018) = linuxPte s := by
  unfold initStores
  rw [readWord_otherFrame _ ne (by decide) (by decide),
    readWord_otherFrame _ ne (by decide) (by decide),
    readWord_otherFrame _ ne (by decide) (by decide)]
  exact readWord_index _ (i := 1018) (k := 0) (n := 1) (f := fun _ => linuxPte s) Nat.one_pos
    (linuxPte_lt low)

theorem initStores_self (low : s < 2 ^ 20) :
    (initStores virtToPhys w pfns pfns' g s).readWord (s * 4096 + 4 * 0) = linuxPte s := by
  unfold initStores
  rw [readWord_otherIndex _ (.inl (by decide))]
  exact readWord_index _ (i := 0) (k := 0) (n := 1) (f := fun _ => linuxPte s) Nat.one_pos
    (linuxPte_lt low)

theorem initStores_passage (low : virtToPhys w.monitor.passagePage / 4096 < 2 ^ 20) :
    (initStores virtToPhys w pfns pfns' g s).readWord (s * 4096 + 4 * 767) =
      linuxPte (virtToPhys w.monitor.passagePage / 4096) := by
  unfold initStores
  rw [readWord_otherIndex _ (.inr (by decide)), readWord_otherIndex _ (.inr (by decide))]
  exact readWord_index _ (i := 767) (k := 0) (n := 1)
    (f := fun _ => linuxPte (virtToPhys w.monitor.passagePage / 4096)) Nat.one_pos
    (linuxPte_lt low)

theorem initStores_io (hk : k < 16)
    (low : virtToPhys (w.monitor.ioBuffer + 4096 * k) / 4096 < 2 ^ 20) :
    (initStores virtToPhys w pfns pfns' g s).readWord (s * 4096 + 4 * (512 + k)) =
      linuxPte (virtToPhys (w.monitor.ioBuffer + 4096 * k) / 4096) := by
  unfold initStores
  exact readWord_index _ (f := fun k => linuxPte (virtToPhys (w.monitor.ioBuffer + 4096 * k) / 4096))
    hk (linuxPte_lt low)

end InitStores

end CoLinux
