import CoLinux.Kernel.Proofs.PagesInv
import Mathlib.Data.List.Basic

/-!
# One call on one page of RAM

`RamStep` is what `co_monitor_alloc_and_map_page` and `co_monitor_free_and_unmap_page` have in
common: they keep the invariant, change the frame of their own page only, and store into page
tables and the reversed map only. Loops over pages and the guest's page walk use nothing else.
-/

namespace CoLinux

open Lib

/-- The frames the host can still hand out and the driver can map. -/
def World.freeFrames (w : World) : List Nat :=
  (List.range w.manager.hostmemPages).filter fun p =>
    p ≠ 0 ∧ p / ptrsPerPte < w.manager.reversedPageCount ∧ p ∉ w.host.out

theorem mem_freeFrames {w : World} {p : Nat} : p ∈ w.freeFrames ↔
    p < w.manager.hostmemPages ∧ p ≠ 0 ∧ p / ptrsPerPte < w.manager.reversedPageCount ∧
      p ∉ w.host.out := by
  simp [World.freeFrames]

/-- Every byte of frame `q` is the same in both states. -/
def FrameKept (w w' : World) (q : Nat) : Prop :=
  ∀ i < 4096, w'.mem (q * 4096 + i) = w.mem (q * 4096 + i)

/-- The effect of one call on virtual frame `v`. -/
structure RamStep (w : World) (v : Nat) (w' : World) : Prop where
  inv : PagesInv w'
  machine : SameMachine w w'
  other : ∀ n, n ≠ ramPage v → w'.ppPfn n = w.ppPfn n
  pte : ∀ u < w.ramPages, u ≠ v → w'.pte u = w.pte u
  kept : ∀ q, w.ppPfn (tablePage v) ≠ q →
    (∀ k < w.manager.reversedPageCount, w.manager.reversedMapPfns k ≠ q) → FrameKept w w' q
  reversed : ∀ p, p / ptrsPerPte < w.manager.reversedPageCount → w'.reversed p = w.reversed p ∨
    p ≠ 0 ∧ (p = w.ppPfn (ramPage v) ∨ p = w'.ppPfn (ramPage v))
  out : ∀ q ∈ w.host.out, q ≠ 0 → q = w.ppPfn (ramPage v) ∨ q ∈ w'.host.out

section
variable {w w' : World} {v : Nat}

theorem FrameKept.readWord {q i : Nat} (h : FrameKept w w' q) (hi : i < 1024) :
    w'.mem.readWord (q * 4096 + 4 * i) = w.mem.readWord (q * 4096 + 4 * i) := by
  refine ByteMem.readWord_congr fun x lo up => ?_
  have inside := h (x - q * 4096) (by omega)
  rwa [show q * 4096 + (x - q * 4096) = x by omega] at inside

/-- A state whose driver data is the same and whose memory agrees on every frame that is out. -/
theorem PagesInv.transport (inv : PagesInv w) (manager : w'.manager = w.manager)
    (ppPfn : w'.ppPfn = w.ppPfn) (size : w'.monitor.memorySize = w.monitor.memorySize)
    (out : ∀ q ∈ w.host.out, q ∈ w'.host.out)
    (answers : ∀ a ∈ w'.host.answers, a ∈ w.host.answers)
    (kept : ∀ q ∈ w.host.out, FrameKept w w' q) :
    PagesInv w' ∧ KeepsFree w w' := by
  obtain ⟨loaded, frames, pages, tables, covered, virtualFrame⟩ := inv
  have ramPages : w'.ramPages = w.ramPages := by rw [World.ramPages, size, World.ramPages]
  have pte : ∀ u < w.ramPages, w'.pte u = w.pte u := fun u hu => by
    rw [World.pte, World.pteSlot, ppPfn, (kept _ (frames.out _ (tables u hu))).readWord
      (Nat.mod_lt _ (by decide))]
    rfl
  refine ⟨⟨⟨?_, ?_, ?_, fun i hi => ?_, ?_, ?_⟩, ⟨fun n hn => ?_, ?_, ?_, ?_⟩, ?_, ?_,
    fun p hp low => ?_, fun u hu => ?_⟩, fun P _ absent u hu => ?_⟩
  all_goals try rw [manager]
  · exact loaded.hostmem
  · exact loaded.count
  · exact loaded.present
  · exact out _ (loaded.out i (manager ▸ hi))
  · exact loaded.distinct
  · exact loaded.pgds
  · rw [ppPfn] at hn ⊢
    exact out _ (frames.out n hn)
  · rw [ppPfn]
    exact frames.low
  · rw [ppPfn]
    exact frames.distinct
  · rw [ppPfn]
    exact frames.notReversed
  · exact ramPages ▸ pages
  · rw [ppPfn, ramPages]
    exact tables
  · exact covered p (answers _ hp) (manager ▸ low)
  · rw [ramPages] at hu
    obtain ⟨entry, cov, back⟩ := virtualFrame u hu
    refine ⟨?_, ?_, ?_⟩
    · rw [pte u hu, ppPfn]
      exact entry
    · rw [ppPfn, manager]
      exact cov
    · rw [ppPfn, World.reversed, manager]
      intro hp
      have index := cov hp
      rw [reversedEntry, (kept _ (loaded.out _ index)).readWord (Nat.mod_lt _ (by decide))]
      exact back hp
  · rw [ramPages] at hu
    rw [ppPfn, pte u hu]
    exact absent u hu

theorem writeWord_frame (m : ByteMem) {p q i k : Nat} (x : Nat) (ne : p ≠ q) (hi : i < 1024)
    (hk : k < 4096) : (m.writeWord (p * 4096 + 4 * i) x) (q * 4096 + k) = m (q * 4096 + k) :=
  m.writeWord_outside x (by omega)

/-- A store into the page table of `v` keeps every other frame. -/
theorem writePte_frame (m : ByteMem) {q k : Nat} (x : Nat) (ne : w.ppPfn (tablePage v) ≠ q)
    (hk : k < 4096) : (m.writeWord (w.pteSlot v) x) (q * 4096 + k) = m (q * 4096 + k) :=
  writeWord_frame m x ne (Nat.mod_lt _ (by decide)) hk

/-- A store into the reversed map keeps every frame that is not one of its pages. -/
theorem writeReversed_frame (m : ByteMem) {p q k : Nat} (x : Nat)
    (cov : p / ptrsPerPte < w.manager.reversedPageCount)
    (ne : ∀ k < w.manager.reversedPageCount, w.manager.reversedMapPfns k ≠ q) (hk : k < 4096) :
    (m.writeWord (reversedEntry w.manager p) x) (q * 4096 + k) = m (q * 4096 + k) :=
  writeWord_frame m x (ne _ cov) (Nat.mod_lt _ (by decide)) hk

theorem Quiet.ramStep (inv : PagesInv w) (h : Quiet w w') : RamStep w v w' := by
  refine ⟨inv.quiet h, h.sameMachine, fun n _ => h.ppPfn n, fun u _ _ => h.pte u,
    fun q _ _ i _ => by rw [h.mem], fun p _ => .inl ?_, fun q hq ne => .inr (h.kept q hq ne ne)⟩
  rw [World.reversed, h.manager, h.mem, World.reversed]

theorem RamStep.of_mapped {p : Nat} (inv : PagesInv w) (hv : v < w.ramPages) (ne : p ≠ 0)
    (low : p < w.manager.hostmemPages)
    (cov : p / ptrsPerPte < w.manager.reversedPageCount) (fresh : p ∉ w.host.out)
    (taken : p ∈ w'.host.out)
    (h : Effect w (w.mapped v p v p) (record w.ppPfn (ramPage v) p) 0 w') : RamStep w v w' := by
  have hv18 := Nat.lt_of_lt_of_le hv inv.size
  have tv := inv.tables v hv
  refine ⟨inv.mapped hv low cov fresh taken h, h.sameMachine, fun n hn => ?_, fun u hu other => ?_,
    fun q table back i hi => ?_, fun q covq => ?_, fun q hq ne => .inr (h.kept q hq ne ne)⟩
  · rw [h.ppPfn, record, if_neg hn]
  · rw [World.pte, h.pteSlot (if_neg (tablePage_ne_ramPage hv18 u)), h.mem, World.mapped,
      readWord_apart _ _ (pteSlot_apart inv.frames (Ne.symm other) tv),
      readWord_apart _ _ (pteSlot_apart_reversed inv.frames (inv.tables u hu) cov).symm, World.pte]
  · rw [h.mem, World.mapped, writePte_frame _ _ table hi, writeReversed_frame _ _ cov back hi]
  · by_cases own : q = p
    · exact .inr ⟨own ▸ ne, .inr (by rw [h.ppPfn, record, if_pos rfl, own])⟩
    · rw [World.reversed, h.manager, h.mem, World.mapped,
        readWord_apart _ _ (pteSlot_apart_reversed inv.frames tv covq),
        readWord_apart _ _ (reversed_apart inv.loaded (Ne.symm own) cov covq)]
      exact .inl rfl

theorem RamStep.of_unmapped_free (inv : PagesInv w) (hv : v < w.ramPages)
    (free : w.ppPfn (ramPage v) = 0)
    (h : Effect w (w.mem.writeWord (w.pteSlot v) 0) w.ppPfn 0 w') : RamStep w v w' := by
  have tv := inv.tables v hv
  refine ⟨inv.unmapped_free hv free h, h.sameMachine, fun n _ => h.ppPfn n, fun u _ ne => ?_,
    fun q table _ i hi => ?_, fun q covq => .inl ?_, fun q hq ne => .inr (h.kept q hq ne ne)⟩
  · rw [World.pte, h.pteSlot rfl, h.mem,
      readWord_apart _ _ (pteSlot_apart inv.frames (Ne.symm ne) tv), World.pte]
  · rw [h.mem, writePte_frame _ _ table hi]
  · rw [World.reversed, h.manager, h.mem,
      readWord_apart _ _ (pteSlot_apart_reversed inv.frames (inv.tables v hv) covq),
      World.reversed]

theorem RamStep.of_unmapped (inv : PagesInv w) (hv : v < w.ramPages)
    (hp : w.ppPfn (ramPage v) ≠ 0)
    (h : Effect w ((w.mem.writeWord (w.pteSlot v) 0).writeWord
      (reversedEntry w.manager (w.ppPfn (ramPage v))) 0) (record w.ppPfn (ramPage v) 0)
      (w.ppPfn (ramPage v)) w') : RamStep w v w' := by
  have cov := (inv.virtualFrame v hv).covered hp
  have hv18 := Nat.lt_of_lt_of_le hv inv.size
  have tv := inv.tables v hv
  refine ⟨inv.unmapped hv hp h, h.sameMachine, fun n hn => ?_, fun u hu ne => ?_,
    fun q table back i hi => ?_, fun q covq => ?_, fun q hq ne => ?_⟩
  · rw [h.ppPfn, record, if_neg hn]
  · rw [World.pte, h.pteSlot (if_neg (tablePage_ne_ramPage hv18 u)), h.mem,
      readWord_apart _ _ (pteSlot_apart_reversed inv.frames (inv.tables u hu) cov).symm,
      readWord_apart _ _ (pteSlot_apart inv.frames (Ne.symm ne) tv), World.pte]
  · rw [h.mem, writeReversed_frame _ _ cov back hi, writePte_frame _ _ table hi]
  · by_cases own : q = w.ppPfn (ramPage v)
    · exact .inr ⟨own ▸ hp, .inl own⟩
    · rw [World.reversed, h.manager, h.mem,
        readWord_apart _ _ (reversed_apart inv.loaded (Ne.symm own) cov covq),
        readWord_apart _ _ (pteSlot_apart_reversed inv.frames tv covq)]
      exact .inl rfl
  · by_cases own : q = w.ppPfn (ramPage v)
    · exact .inl own
    · exact .inr (h.kept q hq ne own)

/-- Allocating a page: it fails and records nothing, finds a frame, or records a free one. -/
theorem coMonitorAllocAndMapPage_step (inv : PagesInv w) (hv : v < w.ramPages) :
    let r := coMonitorAllocAndMapPage (ramAddress v) w
    RamStep w v r.2 ∧
    ((r.1 ≠ .ok ∧ w.ppPfn (ramPage v) = 0 ∧ r.2.ppPfn (ramPage v) = 0 ∧ r.2.mem = w.mem) ∨
     (r.1 = .ok ∧ w.ppPfn (ramPage v) ≠ 0 ∧ r.2.ppPfn (ramPage v) = w.ppPfn (ramPage v) ∧
       r.2.mem = w.mem) ∨
     (r.1 = .ok ∧ w.ppPfn (ramPage v) = 0 ∧ r.2.ppPfn (ramPage v) ∈ w.freeFrames)) := by
  intro r
  rcases coMonitorAllocAndMapPage_cases (Nat.lt_of_lt_of_le hv inv.size) (inv.tables v hv)
    inv.covered with ⟨free, failed, h⟩ | ⟨recorded, ok, h⟩ |
      ⟨free, ok, p, ne, low, cov, fresh, taken, h⟩
  · exact ⟨h.ramStep inv, .inl ⟨failed, free, by rw [h.ppPfn, free], h.mem⟩⟩
  · exact ⟨h.ramStep inv, .inr (.inl ⟨ok, recorded, h.ppPfn _, h.mem⟩)⟩
  · refine ⟨.of_mapped inv hv ne low cov fresh taken h, .inr (.inr ⟨ok, free, ?_⟩)⟩
    rw [h.ppPfn, record, if_pos rfl]
    exact mem_freeFrames.mpr ⟨low, ne, cov, fresh⟩

/-- Freeing a page leaves it without a frame, and the frame it had without a way back. Its entry
becomes 0 unless the call fails, which it does on a page whose group is missing. -/
theorem coMonitorFreeAndUnmapPage_step (inv : PagesInv w) (hv : v < w.ramPages) :
    let w' := (coMonitorFreeAndUnmapPage (ramAddress v) w).2
    RamStep w v w' ∧ w'.ppPfn (ramPage v) = 0 ∧
      (w.ppPfn (ramPage v) ≠ 0 → w'.reversed (w.ppPfn (ramPage v)) = 0) ∧
      (w'.pte v = 0 ∨ w.ppPfn (ramPage v) = 0 ∧ w' = w) := by
  intro w'
  have tv := inv.tables v hv
  have table : ∀ p, record w.ppPfn (ramPage v) p (tablePage v) = w.ppPfn (tablePage v) :=
    fun p => if_neg (tablePage_ne_ramPage (Nat.lt_of_lt_of_le hv inv.size) v)
  rcases coMonitorFreeAndUnmapPage_cases (Nat.lt_of_lt_of_le hv inv.size) tv
    (inv.virtualFrame v hv).covered with ⟨free, _, same⟩ | ⟨free, _, h⟩ | ⟨hp, _, h⟩
  · have same : w' = w := same
    rw [same]
    exact ⟨(Quiet.refl w).ramStep inv, free, fun ne => absurd free ne, .inr ⟨free, rfl⟩⟩
  · refine ⟨.of_unmapped_free inv hv free h, (h.ppPfn _).trans free, fun ne => absurd free ne,
      .inl ?_⟩
    rw [World.pte, h.pteSlot rfl, h.mem, ByteMem.readWord_writeWord_self _ _ (by decide)]
  · refine ⟨.of_unmapped inv hv hp h, by rw [h.ppPfn, record, if_pos rfl], fun _ => ?_, .inl ?_⟩
    · rw [World.reversed, h.manager, h.mem, ByteMem.readWord_writeWord_self _ _ (by decide)]
    · rw [World.pte, h.pteSlot (table 0), h.mem,
        readWord_apart _ _ (pteSlot_apart_reversed inv.frames tv
          ((inv.virtualFrame v hv).covered hp)).symm,
        ByteMem.readWord_writeWord_self _ _ (by decide)]

theorem RamStep.pteSlot (h : RamStep w v w') (hv : v < 251904) (u : Nat) :
    w'.pteSlot u = w.pteSlot u := by
  unfold World.pteSlot
  rw [h.other _ (tablePage_ne_ramPage hv u)]

/-- Calls leave the entries of pages without a frame alone or store 0. -/
theorem RamStep.keepsFree (h : RamStep w v w')
    (own : w'.ppPfn (ramPage v) = 0 →
      w'.pte v = 0 ∨ w.ppPfn (ramPage v) = 0 ∧ w'.pte v = w.pte v) : KeepsFree w w' := by
  intro P zero absent u hu free
  rw [h.machine.ramPages] at hu
  by_cases same : u = v
  · subst same
    rcases own free with cleared | ⟨was, kept⟩
    · rw [cleared]
      exact zero
    · rw [kept]
      exact absent u hu was
  · rw [h.pte u hu same]
    rw [h.other _ (by unfold ramPage; omega)] at free
    exact absent u hu free

theorem coMonitorAllocAndMapPage_keepsFree (inv : PagesInv w) (hv : v < w.ramPages) :
    KeepsFree w (coMonitorAllocAndMapPage (ramAddress v) w).2 := by
  have hv18 := Nat.lt_of_lt_of_le hv inv.size
  obtain ⟨step, ⟨-, was, -, mem⟩ | ⟨-, was, now, -⟩ | ⟨-, -, now⟩⟩ :=
    coMonitorAllocAndMapPage_step inv hv
  · refine step.keepsFree fun _ => .inr ⟨was, ?_⟩
    rw [World.pte, step.pteSlot hv18, mem, World.pte]
  · exact step.keepsFree fun free => absurd (now.symm.trans free) was
  · exact step.keepsFree fun free => absurd free (mem_freeFrames.mp now).2.1

theorem coMonitorFreeAndUnmapPage_keepsFree (inv : PagesInv w) (hv : v < w.ramPages) :
    KeepsFree w (coMonitorFreeAndUnmapPage (ramAddress v) w).2 := by
  obtain ⟨step, -, -, zero⟩ := coMonitorFreeAndUnmapPage_step inv hv
  exact step.keepsFree fun _ => zero.imp id fun same => ⟨same.1, by rw [same.2]⟩

/-! ## Copying into RAM -/

/-- One part of a copy, all of it on one page of RAM. -/
theorem copyRegionSplitCallback_inv {o n : Nat} (data : Option (Nat → UInt8)) (d : Nat)
    (inv : PagesInv w) (lo : coArchKernelOffset ≤ o) (hi : o + n ≤ ramAddress w.ramPages)
    (pos : 0 < n) (inPage : o % 4096 + n ≤ 4096) :
    let r := copyRegionSplitCallback data o n (w, d)
    PagesInv r.2.1 ∧ SameMachine w r.2.1 ∧ KeepsFree w r.2.1 ∧
      (∀ m, w.ppPfn m ≠ 0 → r.2.1.ppPfn m = w.ppPfn m) ∧ (r.1 = .ok → r.2.1.ppPfn (o / 4096) ≠ 0) := by
  intro r
  obtain ⟨v, hv, page⟩ : ∃ v < w.ramPages, o / 4096 * 4096 = ramAddress v := by
    refine ⟨o / 4096 - 0xc0000, ?_, ?_⟩ <;>
      simp only [ramAddress, coArchKernelOffset] at * <;> omega
  have number : o / 4096 = ramPage v := by
    have := ramAddress_page v
    rw [← page] at this
    simpa [coArchPageSize] using this
  have free := coMonitorAllocAndMapPage_keepsFree inv hv
  obtain ⟨step, outcome⟩ := coMonitorAllocAndMapPage_step inv hv
  have hr : r = copyRegionSplitCallback data o n (w, d) := rfl
  unfold copyRegionSplitCallback at hr
  simp only [coArchPageSize, page] at hr
  generalize coMonitorAllocAndMapPage (ramAddress v) w = g at free step outcome hr
  obtain ⟨rc, w1⟩ := g
  dsimp only at free step outcome hr
  have kept : ∀ m, w.ppPfn m ≠ 0 → w1.ppPfn m = w.ppPfn m := by
    intro m hm
    by_cases own : m = ramPage v
    · rcases outcome with ⟨-, was, -⟩ | ⟨-, -, now, -⟩ | ⟨-, was, -⟩
      · exact absurd (own ▸ was) hm
      · rw [own, now]
      · exact absurd (own ▸ was) hm
    · exact step.other m own
  by_cases ok : rc = .ok
  · subst ok
    have frame : w1.ppPfn (ramPage v) ≠ 0 := by
      rcases outcome with ⟨failed, -⟩ | ⟨-, was, now, -⟩ | ⟨-, -, now⟩
      · exact absurd rfl failed
      · rwa [now]
      · exact (mem_freeFrames.mp now).2.1
    have group : (w1.monitor.ppPfns (ramPage v / ptrsPerPte)).isNone = false := by
      rw [Option.isNone_eq_false_iff]
      exact ppPfn_group frame
    have get : coMonitorGetPfn (ramAddress v) w1 = .ok (w1.ppPfn (ramPage v)) := by
      rw [coMonitorGetPfn, ramAddress_page, group]
      rfl
    simp only [ne_eq, not_true_eq_false, if_false, get] at hr
    rw [hr]
    have hv1 : v < w1.ramPages := step.machine.ramPages ▸ hv
    refine ⟨step.inv.copied hv1 frame (by omega) _, step.machine.trans ⟨rfl, _, _, rfl⟩,
      free.trans ?_, kept, fun _ => ?_⟩
    · exact step.inv.copied_free hv1 frame (by omega) _
    · rw [number]
      exact frame
  · simp only [ne_eq, ok, not_false_eq_true, if_true] at hr
    rw [hr]
    exact ⟨step.inv, step.machine, free, kept, fun h => absurd h ok⟩

theorem coMonitorCopyRegion_inv {a size : Nat} (data : Option (Nat → UInt8)) (inv : PagesInv w)
    (lo : coArchKernelOffset ≤ a) (hi : a + size ≤ ramAddress w.ramPages) :
    let r := coMonitorCopyRegion a size data w
    PagesInv r.2 ∧ SameMachine w r.2 ∧ KeepsFree w r.2 ∧
      (r.1 = .ok → ∀ x, a ≤ x → x < a + size → r.2.ppPfn (x / 4096) ≠ 0) := by
  intro r
  have top : ramAddress w.ramPages ≤ wordSize := by
    have := inv.size
    simp only [ramAddress, coArchKernelOffset, wordSize]
    omega
  obtain ⟨onOk, onFail⟩ := @coSplit_rule _ (copyRegionSplitCallback data)
    (fun o s => PagesInv s.1 ∧ SameMachine w s.1 ∧ KeepsFree w s.1 ∧
      ∀ x, a ≤ x → x < o → s.1.ppPfn (x / 4096) ≠ 0)
    (fun s => PagesInv s.1 ∧ SameMachine w s.1 ∧ KeepsFree w s.1) a size
    (by
      rintro o n ⟨w1, d⟩ h1 h2 pos inPage ⟨inv1, machine, free, done⟩
      obtain ⟨inv2, machine2, free2, kept, now⟩ := copyRegionSplitCallback_inv data d inv1
        (Nat.le_trans lo h1) (machine.ramPages ▸ Nat.le_trans h2 hi) pos inPage
      refine ⟨fun ok => ⟨inv2, machine.trans machine2, free.trans free2, fun x h3 h4 => ?_⟩,
        fun _ => ⟨inv2, machine.trans machine2, free.trans free2⟩⟩
      by_cases before : x < o
      · rw [kept _ (done x h3 before)]
        exact done x h3 before
      · rw [show x / 4096 = o / 4096 by omega]
        exact now ok)
    (Nat.le_trans hi top) (w, 0)
    ⟨inv, .refl w, .refl w, fun x h1 h2 => absurd h1 (Nat.not_le.mpr h2)⟩
  by_cases ok : r.1 = .ok
  · obtain ⟨inv', machine, free, done⟩ := onOk ok
    exact ⟨inv', machine, free, fun _ => done⟩
  · obtain ⟨inv', machine, free⟩ := onFail ok
    exact ⟨inv', machine, free, fun h => absurd h ok⟩

end

end CoLinux
