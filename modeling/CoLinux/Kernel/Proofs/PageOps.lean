import CoLinux.Kernel.Proofs.PageSplit

/-!
# What the paging operations do

One `Effect` per operation: the memory it leaves, the frame it leaves in `pp_pfns` for every
guest page, and the frame it gives back. `coMonitorAllocAndMapPage_cases` and
`coMonitorFreeAndUnmapPage_cases` list everything the two operations can do to a page of
pseudo physical RAM; the invariants of later modules follow from them alone.
-/

namespace CoLinux

open Lib

/-! ## Pages and page table entries of pseudo physical RAM -/

/-- The guest page number of virtual frame `v` of RAM. -/
def ramPage (v : Nat) : Nat := 0xc0000 + v

/-- The address of that page. -/
def ramAddress (v : Nat) : Nat := coArchKernelOffset + 4096 * v

/-- The guest page number of the page table that holds the entry of `v`. -/
def tablePage (v : Nat) : Nat := 0xfeb00 + v / 1024

/-- The physical address of the page table entry of `v`. -/
def World.pteSlot (w : World) (v : Nat) : Nat := w.ppPfn (tablePage v) * 4096 + 4 * (v % 1024)

/-- The page table entry of `v`, read through the guest's own pages. -/
def World.pte (w : World) (v : Nat) : Nat := w.mem.readWord (w.pteSlot v)

/-- The reversed map's word for a frame. -/
def World.reversed (w : World) (pfn : Nat) : Nat := w.mem.readWord (reversedEntry w.manager pfn)

theorem ramAddress_page (v : Nat) : ramAddress v / coArchPageSize = ramPage v := by
  simp only [ramAddress, ramPage, coArchKernelOffset, coArchPageSize]
  omega

theorem virtualPfn_ramAddress {v : Nat} (hv : v < 2 ^ 18) : virtualPfn (ramAddress v) = v := by
  unfold virtualPfn ramAddress
  simp only [coArchKernelOffset, coArchPageSize, wordSize]
  omega

theorem pteAddress_eq {v : Nat} (hv : v < 2 ^ 18) : pteAddress v = 0xfeb00000 + 4 * v := by
  unfold pteAddress
  simp only [coVptrPseudoRamPageTables, coVptrBase, sizeofPte, wordSize]
  omega

/-! ## Effects -/

/-- `w'` is `w` with the memory `mem`, the recorded frames `pfns` and the frame `gone` given
back (0 when there is none). Groups may have been allocated and host answers consumed. -/
structure Effect (w : World) (mem : ByteMem) (pfns : Nat → Nat) (gone : Nat) (w' : World) :
    Prop where
  manager : w'.manager = w.manager
  monitor : ∃ groups blocks, w'.monitor =
    { w.monitor with ppPfns := groups, blocksAllocated := blocks }
  mem : w'.mem = mem
  ppPfn : ∀ n, w'.ppPfn n = pfns n
  groups : ∀ g, (w.monitor.ppPfns g).isSome → (w'.monitor.ppPfns g).isSome
  kept : ∀ q ∈ w.host.out, q ≠ 0 → q ≠ gone → q ∈ w'.host.out
  answers : ∀ a ∈ w'.host.answers, a ∈ w.host.answers

/-- Nothing but groups and host answers changed. -/
abbrev Quiet (w w' : World) : Prop := Effect w w.mem w.ppPfn 0 w'

theorem Quiet.refl (w : World) : Quiet w w :=
  ⟨rfl, ⟨_, _, rfl⟩, rfl, fun _ => rfl, fun _ h => h, fun _ h _ _ => h, fun _ h => h⟩

/-- Effects compose when the first one gives no frame back. -/
theorem Effect.trans {w w' w'' : World} {m m' : ByteMem} {f f' : Nat → Nat} {gone : Nat}
    (first : Effect w m f 0 w') (second : Effect w' m' f' gone w'') :
    Effect w m' f' gone w'' := by
  obtain ⟨g, b, hm⟩ := first.monitor
  obtain ⟨g', b', hm'⟩ := second.monitor
  refine ⟨second.manager.trans first.manager, ⟨g', b', ?_⟩, second.mem, second.ppPfn,
    fun x hx => second.groups x (first.groups x hx), ?_,
    fun a ha => first.answers a (second.answers a ha)⟩
  · rw [hm', hm]
  · intro q hq ne hne
    exact second.kept q (first.kept q hq ne ne) ne hne

theorem ppPfn_group {w : World} {n : Nat} (h : w.ppPfn n ≠ 0) :
    (w.monitor.ppPfns (n / ptrsPerPte)).isSome := by
  unfold World.ppPfn at h
  cases hg : w.monitor.ppPfns (n / ptrsPerPte) with
  | none => simp [hg] at h
  | some _ => rfl

theorem ppPfn_setPpPfn {w : World} {n : Nat} (h : (w.monitor.ppPfns (n / ptrsPerPte)).isSome)
    (p m : Nat) : (w.setPpPfn (n / ptrsPerPte) (n % ptrsPerPte) p).ppPfn m =
      if m = n then p else w.ppPfn m := by
  obtain ⟨group, hg⟩ := Option.isSome_iff_exists.mp h
  unfold World.setPpPfn World.setPpGroup World.ppPfn
  simp only [hg]
  by_cases same : m / ptrsPerPte = n / ptrsPerPte
  · have iff : m % ptrsPerPte = n % ptrsPerPte ↔ m = n := by
      simp only [ptrsPerPte] at same ⊢
      omega
    simp only [same, if_true, iff, hg]
  · have ne : m ≠ n := fun h => same (h ▸ rfl)
    simp only [same, if_false, ne]

theorem setPpPfn_groups {w : World} {g i p x : Nat} (h : (w.monitor.ppPfns x).isSome) :
    ((w.setPpPfn g i p).monitor.ppPfns x).isSome := by
  unfold World.setPpPfn World.setPpGroup
  cases hg : w.monitor.ppPfns g with
  | none => exact h
  | some _ =>
    by_cases hx : x = g
    · simp [hx]
    · simpa [hx] using h

theorem setPpPfn_monitor (w : World) (g i p : Nat) : ∃ groups,
    (w.setPpPfn g i p).monitor = { w.monitor with ppPfns := groups } := by
  unfold World.setPpPfn World.setPpGroup
  cases w.monitor.ppPfns g with
  | none => exact ⟨_, rfl⟩
  | some _ => exact ⟨_, rfl⟩

/-- Allocating a group changes no recorded frame. -/
theorem allocPpGroup_cases (failure : CoRc) (hf : failure ≠ .ok) (g : Nat) (w : World) :
    ((allocPpGroup failure g w).1 ≠ .ok ∧ w.monitor.ppPfns g = none ∨
      (allocPpGroup failure g w).1 = .ok ∧
        ((allocPpGroup failure g w).2.monitor.ppPfns g).isSome) ∧
    Quiet w (allocPpGroup failure g w).2 ∧
    (allocPpGroup failure g w).2.host.answers = w.host.answers ∧
    (allocPpGroup failure g w).2.host.out = w.host.out := by
  unfold allocPpGroup
  by_cases hg : (w.monitor.ppPfns g).isSome
  · rw [if_pos hg]
    exact ⟨.inr ⟨rfl, hg⟩, .refl w, rfl, rfl⟩
  · have absent : w.monitor.ppPfns g = none := by simpa using hg
    rw [if_neg hg]
    unfold coMonitorMalloc coOsMalloc
    cases hm : w.host.mallocs with
    | nil => exact ⟨.inl ⟨by simpa using hf, absent⟩, .refl w, rfl, rfl⟩
    | cons granted rest =>
      cases granted with
      | false =>
        refine ⟨.inl ⟨by simpa using hf, absent⟩, ?_, rfl, rfl⟩
        exact ⟨rfl, ⟨_, _, rfl⟩, rfl, fun _ => rfl, fun _ h => h, fun _ h _ _ => h, fun _ h => h⟩
      | true =>
        refine ⟨.inr ⟨rfl, by simp [World.setPpGroup]⟩, ?_, rfl, rfl⟩
        refine ⟨rfl, ⟨_, _, rfl⟩, rfl, fun n => ?_, fun x hx => ?_, fun _ h _ _ => h, fun _ h => h⟩
        · by_cases hn : n / ptrsPerPte = g
          · simp [World.ppPfn, World.setPpGroup, hn, absent]
          · simp [World.ppPfn, World.setPpGroup, hn, World.setHost]
        · by_cases h : x = g
          · simp [World.setPpGroup, h]
          · simpa [World.setPpGroup, h, World.setHost] using hx

/-! ## Page table entries on a page that is already there -/

/-- Writing page table entries into a recorded page stores them there and does nothing else. -/
theorem coMonitorCreatePtes_recorded {w : World} {address size : Nat}
    (source : World → Nat → Nat) (hp : w.ppPfn (address / coArchPageSize) ≠ 0)
    (ha : address < wordSize) (hs : size ≠ 0) (hin : address % 4096 + size ≤ 4096) :
    coMonitorCreatePtes address size source w =
      (.ok, w.setMem (w.mem.writeWords
        (w.ppPfn (address / coArchPageSize) * 4096 + address % 4096) (size / 4)
        fun i => linuxPte (source w i))) := by
  unfold coMonitorCreatePtes coManagerScanPfnsAndCallback
  have group : allocPpGroup .error (address / coArchPageSize / ptrsPerPte) w = (.ok, w) := by
    unfold allocPpGroup
    rw [if_pos (ppPfn_group hp)]
  rw [coSplit_onePage _ ha hs hin]
  simp [scanPfnsSplitCallback, group, recordedOrNewPfn, hp, callScanFunc, createPtesCallback]

/-- The entry of `v`, written on a recorded page table. -/
theorem createPte_recorded {w : World} {v : Nat} (hv : v < 2 ^ 18)
    (table : w.ppPfn (tablePage v) ≠ 0) (p : Nat) :
    coMonitorCreatePtes (pteAddress v) sizeofPte (fun _ _ => p) w =
      (.ok, w.setMem (w.mem.writeWord (w.pteSlot v) (linuxPte p))) := by
  have page : pteAddress v / coArchPageSize = tablePage v := by
    rw [pteAddress_eq hv]
    simp only [tablePage, coArchPageSize]
    omega
  have offset : pteAddress v % 4096 = 4 * (v % 1024) := by
    rw [pteAddress_eq hv]
    omega
  have range : pteAddress v < wordSize := by
    rw [pteAddress_eq hv]
    simp only [wordSize]
    omega
  have inPage : pteAddress v % 4096 + sizeofPte ≤ 4096 := by
    rw [offset]
    simp only [sizeofPte]
    omega
  rw [coMonitorCreatePtes_recorded _ (by rwa [page]) range (by decide) inPage, page, offset]
  rfl

/-! ## Pages that are recorded on the way -/

/-- `pp_pfns` after page `n` got frame `p`. -/
def record (pfns : Nat → Nat) (n p : Nat) : Nat → Nat := fun m => if m = n then p else pfns m

/-- `w'` is `w` with a frame recorded for page `n`: the one it had, or a new one. -/
inductive Recorded (w : World) (n : Nat) (w' : World) : Prop
  | had (ne : w.ppPfn n ≠ 0) (h : Quiet w w')
  | got (p : Nat) (was : w.ppPfn n = 0) (ne : p ≠ 0) (low : p < w.manager.hostmemPages)
      (fresh : p ∉ w.host.out) (taken : p ∈ w'.host.out)
      (h : Effect w w.mem (record w.ppPfn n p) 0 w')

/-- A scan that succeeds on one page has recorded a frame for it and run its callback there. -/
theorem scanPfnsSplitCallback_ok {func : Option ScanFunc} {o n d : Nat} {w : World}
    (ok : (scanPfnsSplitCallback func true o n (w, d)).1 = .ok) :
    ∃ w', Recorded w (o / 4096) w' ∧ (scanPfnsSplitCallback func true o n (w, d)).2 =
      callScanFunc func (w'.ppPfn (o / 4096)) o n (w', d) := by
  obtain ⟨outcome, quiet, -, out⟩ :=
    allocPpGroup_cases .error (by decide) (o / coArchPageSize / ptrsPerPte) w
  unfold scanPfnsSplitCallback at ok ⊢
  dsimp only at ok ⊢
  generalize allocPpGroup .error (o / coArchPageSize / ptrsPerPte) w = g at outcome quiet out ok ⊢
  obtain ⟨rc, w1⟩ := g
  rcases outcome with ⟨failed, -⟩ | ⟨rfl, group⟩
  · simp only [ne_eq, failed, not_false_eq_true, if_true] at ok
  · simp only [ne_eq, not_true_eq_false, if_false, Bool.true_eq_false] at ok quiet out group ⊢
    unfold recordedOrNewPfn at ok ⊢
    by_cases recorded : w1.ppPfn (o / coArchPageSize) = 0
    · rw [if_neg (by simpa using recorded)] at ok ⊢
      cases hp : coManagerGetPage w1 with
      | mk result w2 =>
        cases result with
        | error rc =>
          simp only [hp] at ok
          exact absurd ok (coManagerGetPage_error hp).1
        | ok p =>
          obtain ⟨rest, ans, ne, fresh, low, rfl⟩ := coManagerGetPage_ok hp
          obtain ⟨groups, hg⟩ := setPpPfn_monitor
            (w1.setHost { w1.host with answers := rest, out := p :: w1.host.out })
            (o / coArchPageSize / ptrsPerPte) (o / coArchPageSize % ptrsPerPte) p
          have effect : Effect w w.mem (record w.ppPfn (o / 4096) p) 0
              ((w1.setHost { w1.host with answers := rest, out := p :: w1.host.out }).setPpPfn
                (o / coArchPageSize / ptrsPerPte) (o / coArchPageSize % ptrsPerPte) p) := by
            refine quiet.trans ⟨by simp, ⟨groups, _, hg⟩, by simp [quiet.mem], fun m => ?_,
              fun x hx => setPpPfn_groups (by simpa using hx), ?_, ?_⟩
            · rw [ppPfn_setPpPfn (by simpa using group)]
              simp [record, quiet.ppPfn]
            · intro q hq _ _
              simpa using .inr hq
            · intro a ha
              rw [ans]
              exact List.mem_cons_of_mem _ (by simpa using ha)
          refine ⟨_, .got p ((quiet.ppPfn _).symm.trans recorded) ne (quiet.manager ▸ low)
            (out ▸ fresh) (by simp) effect, ?_⟩
          dsimp only
          rw [effect.ppPfn, record, if_pos rfl]
    · rw [if_pos recorded]
      exact ⟨w1, .had (by rwa [← quiet.ppPfn]) quiet, rfl⟩

/-! ## The two operations -/

/-- The memory after the reversed map's word of `p` became `back` and the entry of `v` became
the entry of frame `p'`. -/
def World.mapped (w : World) (v p back p' : Nat) : ByteMem :=
  (w.mem.writeWord (reversedEntry w.manager p) back).writeWord (w.pteSlot v) (linuxPte p')

/-- Every answer the host may give to a page request is a frame the reversed map covers, or is
too high to be accepted. -/
def World.Covered (w : World) : Prop :=
  ∀ p, some p ∈ w.host.answers → p < w.manager.hostmemPages →
    p / ptrsPerPte < w.manager.reversedPageCount

theorem tablePage_ne_ramPage {v : Nat} (hv : v < 251904) (u : Nat) :
    tablePage u ≠ ramPage v := by
  unfold tablePage ramPage
  omega

/-- Both stores that map a page succeed when the frame is covered and the page table is
there. -/
theorem mapPage_covered {w : World} {v p : Nat} (hv : v < 251904)
    (table : w.ppPfn (tablePage v) ≠ 0)
    (group : (w.monitor.ppPfns (ramPage v / ptrsPerPte)).isSome)
    (covered : p / ptrsPerPte < w.manager.reversedPageCount) :
    mapPage (ramAddress v) p w =
      (.ok, (w.setPpPfn (ramPage v / ptrsPerPte) (ramPage v % ptrsPerPte) p).setMem
        (w.mapped v p v p)) := by
  unfold mapPage coManagerSetReversedPfn
  have other : ∀ m, (w.setPpPfn (ramPage v / ptrsPerPte) (ramPage v % ptrsPerPte) p).ppPfn
      (tablePage m) = w.ppPfn (tablePage m) := fun m => by
    rw [ppPfn_setPpPfn group, if_neg (tablePage_ne_ramPage hv m)]
  simp only [ramAddress_page, virtualPfn_ramAddress (show v < 2 ^ 18 by omega), setPpPfn_manager,
    Nat.not_le.mpr covered, if_false, Step.andThen_ok, setPpPfn_mem]
  rw [createPte_recorded (by omega) (by simpa [other] using table)]
  simp only [World.pteSlot, ppPfn_setMem, other, setMem_mem]
  rfl

/-- `co_monitor_alloc_and_map_page` of a RAM address, which names the frame it is recorded for. -/
theorem coMonitorAllocAndMapPage_ram (v : Nat) (w : World) :
    coMonitorAllocAndMapPage (ramAddress v) w =
      (allocPpGroup .outOfMemory (ramPage v / ptrsPerPte) w).andThen fun w =>
        if w.ppPfn (ramPage v) ≠ 0 then (.ok, w)
        else match coManagerGetPage w with
          | (.error rc, w) => (rc, w)
          | (.ok physicalPfn, w) => mapPage (ramAddress v) physicalPfn w := by
  rw [← ramAddress_page]
  rfl

/-- A frame that the reversed map does not cover is recorded and not mapped. -/
theorem mapPage_uncovered {w : World} {a p : Nat}
    (high : w.manager.reversedPageCount ≤ p / ptrsPerPte) : (mapPage a p w).1 ≠ .ok := by
  unfold mapPage coManagerSetReversedPfn
  dsimp only
  rw [setPpPfn_manager, if_pos high, Step.andThen_of_ne (by simp)]
  simp

/-- Everything `co_monitor_alloc_and_map_page` can do to a page of RAM. -/
theorem coMonitorAllocAndMapPage_outcomes {w : World} {v : Nat} (hv : v < 251904)
    (table : w.ppPfn (tablePage v) ≠ 0) :
    let r := coMonitorAllocAndMapPage (ramAddress v) w
    (w.ppPfn (ramPage v) = 0 ∧ r.1 ≠ .ok ∧ Quiet w r.2) ∨
    (w.ppPfn (ramPage v) ≠ 0 ∧ r.1 = .ok ∧ Quiet w r.2) ∨
    (w.ppPfn (ramPage v) = 0 ∧ ∃ p, some p ∈ w.host.answers ∧ p < w.manager.hostmemPages ∧
      (w.manager.reversedPageCount ≤ p / ptrsPerPte ∧ r.1 ≠ .ok ∨
       r.1 = .ok ∧ p ≠ 0 ∧ p / ptrsPerPte < w.manager.reversedPageCount ∧
        p ∉ w.host.out ∧ p ∈ r.2.host.out ∧
        Effect w (w.mapped v p v p) (record w.ppPfn (ramPage v) p) 0 r.2)) := by
  intro r
  obtain ⟨outcome, quiet, answers, out⟩ :=
    allocPpGroup_cases .outOfMemory (by decide) (ramPage v / ptrsPerPte) w
  have hr : r = _ := coMonitorAllocAndMapPage_ram v w
  generalize allocPpGroup .outOfMemory (ramPage v / ptrsPerPte) w = g at outcome quiet answers out hr
  obtain ⟨rc, w1⟩ := g
  rcases outcome with ⟨failed, absent⟩ | ⟨ok, group⟩
  · -- no memory for the group of frames
    have empty : w.ppPfn (ramPage v) = 0 := by simp [World.ppPfn, absent]
    rw [Step.andThen_of_ne failed] at hr
    exact .inl ⟨empty, by rw [hr]; exact failed, by rw [hr]; exact quiet⟩
  · obtain rfl : rc = .ok := ok
    simp only at quiet answers out group
    rw [Step.andThen_ok] at hr
    simp only [quiet.ppPfn] at hr
    by_cases recorded : w.ppPfn (ramPage v) = 0
    · rw [if_neg (by simpa using recorded)] at hr
      cases hp : coManagerGetPage w1 with
      | mk result w2 =>
        cases result with
        | error rc =>
          -- the host refused
          obtain ⟨ne, host, rfl, -, kept, left⟩ := coManagerGetPage_error hp
          simp only [hp] at hr
          refine .inl ⟨recorded, by rw [hr]; exact ne, ?_⟩
          rw [hr]
          refine quiet.trans ⟨rfl, ⟨_, _, rfl⟩, quiet.mem, fun n => quiet.ppPfn n,
            fun _ h => h, fun q hq _ _ => kept q hq, left⟩
        | ok p =>
          obtain ⟨rest, ans, ne, fresh, low, rfl⟩ := coManagerGetPage_ok hp
          rw [quiet.manager] at low
          have answer : some p ∈ w.host.answers := by
            rw [← answers, ans]
            exact List.mem_cons_self
          simp only [hp] at hr
          refine .inr (.inr ⟨recorded, p, answer, low, ?_⟩)
          by_cases high : w.manager.reversedPageCount ≤ p / ptrsPerPte
          · refine .inl ⟨high, ?_⟩
            rw [hr]
            exact mapPage_uncovered (by simpa [quiet.manager] using high)
          have cov : p / ptrsPerPte < w.manager.reversedPageCount := Nat.lt_of_not_le high
          rw [mapPage_covered (w := w1.setHost _) hv (by simpa [quiet.ppPfn] using table)
            (by simpa using group) (by simpa [quiet.manager] using cov)] at hr
          refine .inr ⟨by rw [hr], ne, cov, by rw [← out]; exact fresh, by rw [hr]; simp, ?_⟩
          rw [hr]
          refine quiet.trans ⟨by simp, ?_, ?_, fun n => ?_, fun x hx => ?_, ?_, ?_⟩
          · obtain ⟨groups, hg⟩ := setPpPfn_monitor
              (w1.setHost { w1.host with answers := rest, out := p :: w1.host.out })
              (ramPage v / ptrsPerPte) (ramPage v % ptrsPerPte) p
            exact ⟨groups, _, by simp only [setMem_monitor, hg]; rfl⟩
          · simp [World.mapped, World.pteSlot, quiet.ppPfn, quiet.mem, quiet.manager]
          · rw [ppPfn_setMem, ppPfn_setPpPfn (by simpa using group)]
            simp [record, quiet.ppPfn]
          · exact setPpPfn_groups (by simpa using hx)
          · intro q hq _ _
            simpa using .inr hq
          · intro a ha
            rw [ans]
            exact List.mem_cons_of_mem _ (by simpa using ha)
    · rw [if_pos recorded] at hr
      exact .inr (.inl ⟨recorded, by rw [hr], by rw [hr]; exact quiet⟩)

/-- The same, when the reversed map covers every frame the host has left. -/
theorem coMonitorAllocAndMapPage_cases {w : World} {v : Nat} (hv : v < 251904)
    (table : w.ppPfn (tablePage v) ≠ 0) (covered : w.Covered) :
    let r := coMonitorAllocAndMapPage (ramAddress v) w
    (w.ppPfn (ramPage v) = 0 ∧ r.1 ≠ .ok ∧ Quiet w r.2) ∨
    (w.ppPfn (ramPage v) ≠ 0 ∧ r.1 = .ok ∧ Quiet w r.2) ∨
    (w.ppPfn (ramPage v) = 0 ∧ r.1 = .ok ∧ ∃ p, p ≠ 0 ∧ p < w.manager.hostmemPages ∧
      p / ptrsPerPte < w.manager.reversedPageCount ∧ p ∉ w.host.out ∧ p ∈ r.2.host.out ∧
      Effect w (w.mapped v p v p) (record w.ppPfn (ramPage v) p) 0 r.2) := by
  rcases coMonitorAllocAndMapPage_outcomes hv table with
    failed | recorded | ⟨free, p, answer, low, ⟨high, -⟩ | ⟨ok, ne, cov, fresh, taken, h⟩⟩
  · exact .inl failed
  · exact .inr (.inl recorded)
  · exact absurd (covered p answer low) (Nat.not_lt.mpr high)
  · exact .inr (.inr ⟨free, ok, p, ne, low, cov, fresh, taken, h⟩)

/-- Everything `co_monitor_free_and_unmap_page` can do to a page of RAM whose frame, if it has
one, is covered. -/
theorem coMonitorFreeAndUnmapPage_cases {w : World} {v : Nat} (hv : v < 251904)
    (table : w.ppPfn (tablePage v) ≠ 0)
    (covered : w.ppPfn (ramPage v) ≠ 0 →
      w.ppPfn (ramPage v) / ptrsPerPte < w.manager.reversedPageCount) :
    let r := coMonitorFreeAndUnmapPage (ramAddress v) w
    (w.ppPfn (ramPage v) = 0 ∧ r.1 ≠ .ok ∧ r.2 = w) ∨
    (w.ppPfn (ramPage v) = 0 ∧ r.1 = .ok ∧
      Effect w (w.mem.writeWord (w.pteSlot v) 0) w.ppPfn 0 r.2) ∨
    (w.ppPfn (ramPage v) ≠ 0 ∧ r.1 = .ok ∧
      Effect w ((w.mem.writeWord (w.pteSlot v) 0).writeWord
        (reversedEntry w.manager (w.ppPfn (ramPage v))) 0)
        (record w.ppPfn (ramPage v) 0) (w.ppPfn (ramPage v)) r.2) := by
  intro r
  by_cases group : (w.monitor.ppPfns (ramPage v / ptrsPerPte)).isSome
  · have pte := createPte_recorded (show v < 2 ^ 18 by omega) table 0
    by_cases empty : w.ppPfn (ramPage v) = 0
    · have hr : r = (.ok, w.setMem (w.mem.writeWord (w.pteSlot v) 0)) := by
        simp [r, coMonitorFreeAndUnmapPage, ramAddress_page,
          virtualPfn_ramAddress (show v < 2 ^ 18 by omega), Option.isSome_iff_ne_none.mp group,
          pte, empty]
      refine .inr (.inl ⟨empty, by rw [hr], ?_⟩)
      rw [hr]
      exact ⟨rfl, ⟨_, _, rfl⟩, rfl, fun _ => rfl, fun _ h => h, fun _ h _ _ => h, fun _ h => h⟩
    · have cov := Nat.not_le.mpr (covered empty)
      have hr : r = (.ok, (coOsPutPage (w.ppPfn (ramPage v)) (w.setMem
          ((w.mem.writeWord (w.pteSlot v) 0).writeWord
            (reversedEntry w.manager (w.ppPfn (ramPage v))) 0))).setPpPfn
              (ramPage v / ptrsPerPte) (ramPage v % ptrsPerPte) 0) := by
        simp [r, coMonitorFreeAndUnmapPage, ramAddress_page,
          virtualPfn_ramAddress (show v < 2 ^ 18 by omega), Option.isSome_iff_ne_none.mp group,
          pte, empty, coManagerSetReversedPfn, cov]
      refine .inr (.inr ⟨empty, by rw [hr], ?_⟩)
      rw [hr]
      refine ⟨by simp [coOsPutPage], ?_, by simp [coOsPutPage], fun n => ?_, fun x hx => ?_, ?_, ?_⟩
      · obtain ⟨groups, hg⟩ := setPpPfn_monitor (coOsPutPage (w.ppPfn (ramPage v)) (w.setMem
          ((w.mem.writeWord (w.pteSlot v) 0).writeWord
            (reversedEntry w.manager (w.ppPfn (ramPage v))) 0)))
          (ramPage v / ptrsPerPte) (ramPage v % ptrsPerPte) 0
        exact ⟨groups, _, hg⟩
      · rw [ppPfn_setPpPfn (by simpa [coOsPutPage] using group)]
        simp [record, coOsPutPage]
      · exact setPpPfn_groups (by simpa [coOsPutPage] using hx)
      · intro q hq _ ne
        simp [coOsPutPage, hq, ne]
      · intro a ha
        simpa [coOsPutPage] using ha
  · have absent : w.monitor.ppPfns (ramPage v / ptrsPerPte) = none := by simpa using group
    have hr : r = (.error, w) := by
      simp [r, coMonitorFreeAndUnmapPage, ramAddress_page, absent]
    exact .inl ⟨by simp [World.ppPfn, absent], by rw [hr]; simp, by rw [hr]⟩

end CoLinux
