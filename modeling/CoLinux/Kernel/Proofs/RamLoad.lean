import CoLinux.Kernel.GuestMemory

/-!
# Loading into RAM whose pages are taken on the way

A copy into pseudo physical RAM takes a frame for every page that has none. What it does to the
guest's bytes is a partial function on guest addresses: the stored bytes where the copy has one,
the old byte elsewhere. The frames the copy takes along the way, and the page tables and the
reversed map it stores into, belong to no page of RAM that had a frame before.
-/

namespace CoLinux

open Lib

/-- What `alloc_pp_ram_mapping` leaves, as far as copies into RAM need it. -/
structure RamReady (w : World) : Prop where
  ram : RamRange w
  loaded : ManagerLoaded w
  frames : FramesOk w
  size : w.ramPages ≤ 251904
  tables : ∀ v < w.ramPages, w.ppPfn (tablePage v) ≠ 0

/-- A guest virtual address of pseudo physical RAM. -/
def World.InRam (w : World) (x : Nat) : Prop :=
  coArchKernelOffset ≤ x ∧ x < w.monitor.endPhysical

/-- From `w` to `w'`, the bytes `stored` went into the guest's RAM. -/
structure RamStored (w : World) (stored : Nat → Option UInt8) (w' : World) : Prop where
  ready : RamReady w'
  machine : SameMachine w w'
  kept : ∀ n, w.ppPfn n ≠ 0 → w'.ppPfn n = w.ppPfn n
  bytes : ∀ x b, w.InRam x → stored x = some b →
    w'.ppPfn (x / coArchPageSize) ≠ 0 ∧ w'.guestByte x = b
  others : ∀ x, w.InRam x → stored x = none → w.ppPfn (x / coArchPageSize) ≠ 0 →
    w'.guestByte x = w.guestByte x

/-- The bytes `src 0, src 1, ...` from address `a` on. -/
def storedRange (a size : Nat) (src : Nat → UInt8) : Nat → Option UInt8 := fun x =>
  if a ≤ x ∧ x < a + size then some (src (x - a)) else none

theorem storedRange_append (a n k : Nat) (src : Nat → UInt8) :
    (fun x => (storedRange (a + n) k (fun i => src (n + i)) x).or (storedRange a n src x)) =
      storedRange a (n + k) src := by
  funext x
  unfold storedRange
  by_cases second : a + n ≤ x ∧ x < a + n + k
  · have both : a ≤ x ∧ x < a + (n + k) := by omega
    rw [if_pos second, if_pos both, Option.some_or]
    exact congrArg (fun i => some (src i)) (by omega)
  rw [if_neg second, Option.none_or]
  by_cases first : a ≤ x ∧ x < a + n
  · rw [if_pos first, if_pos (by omega)]
  · rw [if_neg first, if_neg (by omega)]

section
variable {w w' w'' : World} {stored : Nat → Option UInt8}

theorem SameMachine.inRam (h : SameMachine w w') (x : Nat) : w'.InRam x ↔ w.InRam x := by
  unfold World.InRam
  rw [h.endPhysical]

theorem RamReady.page_lt (h : RamReady w) {x : Nat} (hx : w.InRam x) :
    x / coArchPageSize = ramPage (x / 4096 - 0xc0000) ∧ x / 4096 - 0xc0000 < w.ramPages := by
  obtain ⟨low, high⟩ := hx
  rw [h.ram.range] at high
  have whole := h.ram.whole
  simp only [coArchKernelOffset, coArchPageSize, ramPage, World.ramPages] at *
  omega

theorem RamReady.inRam_lt (h : RamReady w) {x : Nat} (hx : w.InRam x) : x < wordSize := by
  have := (h.page_lt hx).2
  have := h.size
  simp only [wordSize]
  omega

theorem RamReady.top (h : RamReady w) : w.monitor.endPhysical ≤ wordSize := by
  have := h.size
  have whole := h.ram.whole
  rw [h.ram.range]
  simp only [World.ramPages, coArchKernelOffset, wordSize] at *
  omega

theorem RamReady.setMem (h : RamReady w) (m : ByteMem) : RamReady (w.setMem m) :=
  ⟨⟨h.ram.range, h.ram.whole⟩, ⟨h.loaded.hostmem, h.loaded.count, h.loaded.present, h.loaded.out,
    h.loaded.distinct, h.loaded.pgds⟩, ⟨h.frames.out, h.frames.low, h.frames.distinct,
    h.frames.notReversed⟩, h.size, h.tables⟩

theorem RamStored.refl (ready : RamReady w) : RamStored w (fun _ => none) w :=
  ⟨ready, .refl w, fun _ _ => rfl, fun _ _ _ h => (nomatch h), fun _ _ _ _ => rfl⟩

/-- One load after another: the later one wins. -/
theorem RamStored.trans {later : Nat → Option UInt8} (h : RamStored w stored w')
    (h' : RamStored w' later w'') :
    RamStored w (fun x => (later x).or (stored x)) w'' := by
  refine ⟨h'.ready, h.machine.trans h'.machine, fun n hn => ?_, fun x b hx hb => ?_,
    fun x hx none frame => ?_⟩
  · have first := h.kept n hn
    rw [h'.kept n (first ▸ hn), first]
  · have hx' : w'.InRam x := (h.machine.inRam x).mpr hx
    cases again : later x with
    | some c =>
      simp only [again, Option.some_or, Option.some.injEq] at hb
      exact h'.bytes x b hx' (hb ▸ again)
    | none =>
      simp only [again, Option.none_or] at hb
      obtain ⟨frame, byte⟩ := h.bytes x b hx hb
      refine ⟨?_, ?_⟩
      · rwa [h'.kept _ frame]
      · rw [h'.others x hx' again frame, byte]
  · obtain ⟨again, before⟩ := Option.or_eq_none_iff.mp none
    rw [h'.others x ((h.machine.inRam x).mpr hx) again (by rwa [h.kept _ frame]),
      h.others x hx before frame]

/-! ## Taking a page -/

theorem Effect.ramReady {m : ByteMem} {f : Nat → Nat} (h : Effect w m f 0 w') (ready : RamReady w)
    (frames : FramesOk w') (tables : ∀ v < w.ramPages, w'.ppPfn (tablePage v) ≠ 0) :
    RamReady w' := by
  have pages := h.ramPages
  exact ⟨h.sameMachine.ramRange ready.ram, h.loaded ready.loaded ready.loaded.present, frames,
    pages ▸ ready.size, pages ▸ tables⟩

theorem Quiet.ramStored (h : Quiet w w') (ready : RamReady w) :
    RamStored w (fun _ => none) w' := by
  refine ⟨Effect.ramReady h ready (h.framesOk_same ready.frames) fun v hv => ?_, h.sameMachine,
    fun n _ => h.ppPfn n, fun _ _ _ none => (nomatch none), fun x _ _ _ => ?_⟩
  · rw [h.ppPfn]
    exact ready.tables v hv
  · unfold World.guestByte World.guestAddress
    rw [h.mem, h.ppPfn]

/-- A page of RAM gets a frame: the stores into the page table and the reversed map meet no byte
of the guest's RAM. -/
theorem Effect.mapped_ramStored {v p : Nat} (ready : RamReady w) (hv : v < w.ramPages)
    (free : w.ppPfn (ramPage v) = 0) (low : p < w.manager.hostmemPages)
    (cov : p / ptrsPerPte < w.manager.reversedPageCount) (fresh : p ∉ w.host.out)
    (taken : p ∈ w'.host.out)
    (h : Effect w (w.mapped v p v p) (record w.ppPfn (ramPage v) p) 0 w') :
    RamStored w (fun _ => none) w' := by
  have hv18 := Nat.lt_of_lt_of_le hv ready.size
  have frames := h.framesOk_record ready.loaded ready.frames fresh taken
    (Nat.lt_of_lt_of_le low ready.loaded.hostmem)
  have kept : ∀ n, w.ppPfn n ≠ 0 → w'.ppPfn n = w.ppPfn n := fun n hn => by
    have other : n ≠ ramPage v := fun same => hn (same ▸ free)
    rw [h.ppPfn, record, if_neg other]
  refine ⟨h.ramReady ready frames fun u hu => ?_, h.sameMachine, kept,
    fun _ _ _ unset => absurd unset.symm (Option.some_ne_none _), fun x hx _ frame => ?_⟩
  · rw [kept _ (ready.tables u hu)]
    exact ready.tables u hu
  · have inPage : x % coArchPageSize < 4096 := Nat.mod_lt _ (by decide)
    have page := (ready.page_lt hx).1
    have table : w.ppPfn (tablePage v) ≠ w.ppPfn (x / coArchPageSize) := fun same =>
      tablePage_ne_ramPage (Nat.lt_of_lt_of_le (ready.page_lt hx).2 ready.size) v
        ((ready.frames.distinct _ _ (ready.tables v hv) same).trans page)
    unfold World.guestByte World.guestAddress
    rw [kept _ frame, h.mem, World.mapped]
    simp only [coArchPageSize] at *
    rw [writePte_frame _ _ table inPage,
      writeReversed_frame _ _ cov (ready.frames.notReversed _ frame) inPage]

/-- A successful `co_monitor_alloc_and_map_page` changes no byte of RAM. -/
theorem coMonitorAllocAndMapPage_ramStored {v : Nat} (ready : RamReady w) (hv : v < w.ramPages)
    (ok : (coMonitorAllocAndMapPage (ramAddress v) w).1 = .ok) :
    RamStored w (fun _ => none) (coMonitorAllocAndMapPage (ramAddress v) w).2 ∧
      (coMonitorAllocAndMapPage (ramAddress v) w).2.ppPfn (ramPage v) ≠ 0 := by
  rcases coMonitorAllocAndMapPage_outcomes (Nat.lt_of_lt_of_le hv ready.size)
    (ready.tables v hv) with ⟨-, failed, -⟩ | ⟨recorded, -, h⟩ |
      ⟨free, p, -, low, ⟨-, failed⟩ | ⟨-, ne, cov, fresh, taken, h⟩⟩
  · exact absurd ok failed
  · exact ⟨Quiet.ramStored h ready, by rwa [h.ppPfn]⟩
  · exact absurd ok failed
  · exact ⟨h.mapped_ramStored ready hv free low cov fresh taken,
      by rwa [h.ppPfn, record, if_pos rfl]⟩

/-! ## Copying -/

/-- A write to pages that have frames. -/
theorem GuestWritten.ramStored {a n : Nat} {src : Nat → UInt8} (h : GuestWritten w w' a n src)
    (ready : RamReady w) (frames : ∀ i < n, w.ppPfn ((a + i) / coArchPageSize) ≠ 0) :
    RamStored w (storedRange a n src) w' := by
  refine ⟨h.others ▸ ready.setMem _, ?_, fun m _ => by rw [h.ppPfn], fun x b _ hb => ?_,
    fun x _ outside _ => ?_⟩
  · rw [h.others]
    exact ⟨rfl, _, _, rfl⟩
  · unfold storedRange at hb
    by_cases inside : a ≤ x ∧ x < a + n
    · rw [if_pos inside, Option.some.injEq] at hb
      have byte := h.written (x - a) (by omega)
      have frame := frames (x - a) (by omega)
      rw [show a + (x - a) = x by omega] at byte frame
      exact ⟨by rwa [h.ppPfn], byte.trans hb⟩
    · rw [if_neg inside] at hb
      exact nomatch hb
  · refine h.outside ready.frames.distinct frames ?_
    unfold storedRange at outside
    by_contra inside
    rw [if_pos (by omega)] at outside
    exact nomatch outside

/-- Once the page has its frame, a piece of a copy goes as if it always had. -/
theorem copyRegionSplitCallback_taken {data : Option (Nat → UInt8)} {o n k : Nat} {w' : World}
    (taken : coMonitorAllocAndMapPage (o / coArchPageSize * coArchPageSize) w = (.ok, w'))
    (frame : w'.ppPfn (o / coArchPageSize) ≠ 0) :
    copyRegionSplitCallback data o n (w, k) = copyRegionSplitCallback data o n (w', k) := by
  have page : o / coArchPageSize * coArchPageSize / coArchPageSize = o / coArchPageSize :=
    Nat.mul_div_cancel _ (by decide)
  have again : coMonitorAllocAndMapPage (o / coArchPageSize * coArchPageSize) w' = (.ok, w') :=
    coMonitorAllocAndMapPage_mapped (by rwa [page])
  unfold copyRegionSplitCallback
  simp only [taken, again]

theorem copyRegionSplitCallback_ramStored {data : Option (Nat → UInt8)} {o n k : Nat}
    (ready : RamReady w) (inRam : w.InRam o) (inPage : o % 4096 + n ≤ 4096)
    (ok : (copyRegionSplitCallback data o n (w, k)).1 = .ok) :
    RamStored w (storedRange o n (copyRegionBytes data k))
        (copyRegionSplitCallback data o n (w, k)).2.1 ∧
      (copyRegionSplitCallback data o n (w, k)).2.2 = if data.isSome then k + n else k := by
  obtain ⟨number, hv⟩ := ready.page_lt inRam
  have page : o / coArchPageSize * coArchPageSize = ramAddress (o / 4096 - 0xc0000) := by
    rw [number]
    simp only [ramPage, ramAddress, coArchPageSize, coArchKernelOffset]
    omega
  have mapped : (coMonitorAllocAndMapPage (o / coArchPageSize * coArchPageSize) w).1 = .ok := by
    by_contra failed
    unfold copyRegionSplitCallback at ok
    dsimp only at ok
    rw [if_pos failed] at ok
    exact failed ok
  have taking := coMonitorAllocAndMapPage_ramStored ready hv (page ▸ mapped)
  rw [← page, ← number] at taking
  obtain ⟨taken, frame⟩ := taking
  rw [copyRegionSplitCallback_taken (Step.eq_of_ok mapped) frame]
  generalize (coMonitorAllocAndMapPage (o / coArchPageSize * coArchPageSize) w).2 = w1
    at taken frame
  rw [copyRegionSplitCallback_mapped (ready.inRam_lt inRam) frame]
  refine ⟨?_, rfl⟩
  have write := guestWritten_piece w1 (copyRegionBytes data k) inPage
  have both := taken.trans (write.ramStored taken.ready fun i hi => by
    rwa [show (o + i) / coArchPageSize = o / coArchPageSize by
      simp only [coArchPageSize]; omega])
  simpa using both

/-- `co_monitor_copy_region` into RAM, when it succeeds. -/
theorem coMonitorCopyRegion_ramStored {a size : Nat} (data : Option (Nat → UInt8))
    (ready : RamReady w) (low : coArchKernelOffset ≤ a) (high : a + size ≤ w.monitor.endPhysical)
    (ok : (coMonitorCopyRegion a size data w).1 = .ok) :
    RamStored w (storedRange a size (copyRegionBytes data 0))
      (coMonitorCopyRegion a size data w).2 := by
  obtain ⟨onOk, -⟩ := @coSplit_rule _ (copyRegionSplitCallback data)
    (fun o s => a ≤ o ∧ RamStored w (storedRange a (o - a) (copyRegionBytes data 0)) s.1 ∧
      (data.isSome → s.2 = o - a)) (fun _ => True) a size
    (by
      rintro o n ⟨w1, k⟩ lo up pos inPage ⟨-, before, position⟩
      refine ⟨fun ok => ?_, fun _ => trivial⟩
      have inRam : w1.InRam o :=
        (before.machine.inRam o).mpr ⟨by omega, by omega⟩
      obtain ⟨piece, moved⟩ := copyRegionSplitCallback_ramStored before.ready inRam inPage ok
      obtain ⟨d, rfl⟩ := Nat.exists_eq_add_of_le lo
      rw [Nat.add_sub_cancel_left] at before position
      refine ⟨by omega, ?_, fun some => ?_⟩
      · have both := before.trans piece
        rw [copyRegionBytes_add data position, storedRange_append] at both
        rwa [show a + d + n - a = d + n by omega]
      · have := position some
        rw [moved, if_pos some]
        omega)
    (Nat.le_trans high ready.top) (w, 0)
    ⟨Nat.le_refl _, by
      rw [Nat.sub_self]
      have empty : storedRange a 0 (copyRegionBytes data 0) = fun _ => none := by
        funext x
        exact if_neg (by omega)
      rw [empty]
      exact .refl ready, fun _ => (Nat.sub_self a).symm⟩
  have done := (onOk ok).2.1
  rwa [Nat.add_sub_cancel_left] at done

end

/-- The states the driver keeps while every frame of the host is covered. -/
theorem PagesInv.ramReady {w : World} (inv : PagesInv w) (ram : RamRange w) : RamReady w :=
  ⟨ram, inv.loaded, inv.frames, inv.size, inv.tables⟩

/-- The state a new monitor starts with, whatever frames the host has left. -/
theorem RamMapped.ramReady {w0 w : World} {mb : Nat} (h : RamMapped w0 w)
    (size : w0.monitor.memorySize = adjustedMemorySize mb)
    (range : w0.monitor.endPhysical = coArchKernelOffset + w0.monitor.memorySize) : RamReady w :=
  ⟨h.ramRange size range, h.loaded, h.frames, h.size, h.tables⟩

end CoLinux
