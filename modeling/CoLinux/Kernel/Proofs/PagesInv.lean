import CoLinux.Kernel.Proofs.PageOps

/-!
# The paging invariant

`PagesInv` ties together the three structures that describe pseudo physical RAM: the recorded
frames, the page table entries reached through them, and the reversed map. Its preservation
rests on one fact: two words of different frames, or different words of one frame, do not
overlap, and no two of the frames involved are the same.
-/

namespace CoLinux

open Lib

/-- The reversed map as `co_manager_alloc_reversed_pfns` leaves it. -/
structure ManagerLoaded (w : World) : Prop where
  hostmem : w.manager.hostmemPages ≤ 2 ^ 20
  count : w.manager.reversedPageCount = w.manager.hostmemPages / ptrsPerPte
  present : ∀ i < w.manager.reversedPageCount, w.manager.reversedMapPfns i ≠ 0
  out : ∀ i < w.manager.reversedPageCount, w.manager.reversedMapPfns i ∈ w.host.out
  distinct : ∀ i < w.manager.reversedPageCount, ∀ j < w.manager.reversedPageCount,
    w.manager.reversedMapPfns i = w.manager.reversedMapPfns j → i = j
  pgds : w.manager.reversedMapPgdsCount = reversedMapPgdsCount

/-- The recorded frames are frames of the host that nothing else uses. -/
structure FramesOk (w : World) : Prop where
  out : ∀ n, w.ppPfn n ≠ 0 → w.ppPfn n ∈ w.host.out
  low : ∀ n, w.ppPfn n < 2 ^ 20
  distinct : ∀ n m, w.ppPfn n ≠ 0 → w.ppPfn n = w.ppPfn m → n = m
  notReversed : ∀ n, w.ppPfn n ≠ 0 → ∀ i < w.manager.reversedPageCount,
    w.manager.reversedMapPfns i ≠ w.ppPfn n

/-- The number of pages of pseudo physical RAM. -/
def World.ramPages (w : World) : Nat := w.monitor.memorySize / 4096

/-- What the three structures say about virtual frame `v`: the entry is the one of the recorded
frame, and a recorded frame points back. -/
structure VirtualFrameOk (w : World) (v : Nat) : Prop where
  pte : w.ppPfn (ramPage v) ≠ 0 → w.pte v = linuxPte (w.ppPfn (ramPage v))
  covered : w.ppPfn (ramPage v) ≠ 0 →
    w.ppPfn (ramPage v) / ptrsPerPte < w.manager.reversedPageCount
  reversed : w.ppPfn (ramPage v) ≠ 0 → w.reversed (w.ppPfn (ramPage v)) = v

/-- The entries of pages without a frame satisfy `P`. -/
def PagesFree (P : Nat → Prop) (w : World) : Prop :=
  ∀ v < w.ramPages, w.ppPfn (ramPage v) = 0 → P (w.pte v)

/-- The entries of pages without a frame are 0. -/
abbrev PagesClear : World → Prop := PagesFree (· = 0)

/-- The entries of pages without a frame are not present. -/
abbrev PagesAbsent : World → Prop := PagesFree (· % 2 = 0)

/-- The entries of pages without a frame were those of pages without a frame, or are 0. -/
def KeepsFree (w w' : World) : Prop := ∀ ⦃P : Nat → Prop⦄, P 0 → PagesFree P w → PagesFree P w'

theorem KeepsFree.refl (w : World) : KeepsFree w w := fun _ _ free => free

theorem KeepsFree.trans {w1 w2 w3 : World} (h : KeepsFree w1 w2) (h' : KeepsFree w2 w3) :
    KeepsFree w1 w3 := fun _ zero free => h' zero (h zero free)

/-- What holds from `alloc_pp_ram_mapping` on while the host hands out covered frames. -/
structure PagesInv (w : World) : Prop where
  loaded : ManagerLoaded w
  frames : FramesOk w
  size : w.ramPages ≤ 251904
  tables : ∀ v < w.ramPages, w.ppPfn (tablePage v) ≠ 0
  covered : w.Covered
  virtualFrame : ∀ v < w.ramPages, VirtualFrameOk w v

/-- The two states belong to one manager and one monitor: they differ in memory, in recorded
frames and in the host. -/
structure SameMachine (w w' : World) : Prop where
  manager : w'.manager = w.manager
  monitor : ∃ groups blocks, w'.monitor =
    { w.monitor with ppPfns := groups, blocksAllocated := blocks }

theorem SameMachine.refl (w : World) : SameMachine w w := ⟨rfl, _, _, rfl⟩

theorem SameMachine.trans {w w' w'' : World} (h : SameMachine w w') (h' : SameMachine w' w'') :
    SameMachine w w'' := by
  obtain ⟨manager, groups, blocks, hm⟩ := h
  obtain ⟨manager', groups', blocks', hm'⟩ := h'
  exact ⟨manager'.trans manager, groups', blocks', by rw [hm', hm]⟩

theorem SameMachine.ramPages {w w' : World} (h : SameMachine w w') : w'.ramPages = w.ramPages := by
  obtain ⟨-, groups, blocks, hm⟩ := h
  rw [World.ramPages, hm]
  rfl

theorem SameMachine.endPhysical {w w' : World} (h : SameMachine w w') :
    w'.monitor.endPhysical = w.monitor.endPhysical := by
  obtain ⟨-, groups, blocks, hm⟩ := h
  rw [hm]

/-! ## Words that do not overlap -/

/-- Two words of memory that share no byte. -/
def Apart (a b : Nat) : Prop := a + 4 ≤ b ∨ b + 4 ≤ a

theorem Apart.symm {a b : Nat} (h : Apart a b) : Apart b a := Or.symm h

theorem readWord_apart (m : ByteMem) {a b : Nat} (v : Nat) (h : Apart a b) :
    (m.writeWord a v).readWord b = m.readWord b :=
  m.readWord_writeWord_outside v h.symm

theorem apart_of_frame_ne {p q i j : Nat} (h : p ≠ q) (hi : i < 1024) (hj : j < 1024) :
    Apart (p * 4096 + 4 * i) (q * 4096 + 4 * j) := by
  unfold Apart
  omega

theorem apart_of_index_ne {p i j : Nat} (h : i ≠ j) :
    Apart (p * 4096 + 4 * i) (p * 4096 + 4 * j) := by
  unfold Apart
  omega

section Words
variable {w : World} (loaded : ManagerLoaded w) (frames : FramesOk w)
include loaded frames

omit loaded in
theorem pteSlot_apart {v u : Nat} (h : v ≠ u) (tv : w.ppPfn (tablePage v) ≠ 0) :
    Apart (w.pteSlot v) (w.pteSlot u) := by
  unfold World.pteSlot
  by_cases same : w.ppPfn (tablePage v) = w.ppPfn (tablePage u)
  · have page := frames.distinct _ _ tv same
    rw [same]
    refine apart_of_index_ne fun index => h ?_
    unfold tablePage at page
    omega
  · exact apart_of_frame_ne same (Nat.mod_lt _ (by decide)) (Nat.mod_lt _ (by decide))

omit loaded in
theorem pteSlot_apart_reversed {v p : Nat} (tv : w.ppPfn (tablePage v) ≠ 0)
    (hp : p / ptrsPerPte < w.manager.reversedPageCount) :
    Apart (w.pteSlot v) (reversedEntry w.manager p) :=
  apart_of_frame_ne (frames.notReversed _ tv _ hp).symm (Nat.mod_lt _ (by decide))
    (Nat.mod_lt _ (by decide))

omit frames in
theorem reversed_apart {p q : Nat} (h : p ≠ q)
    (hp : p / ptrsPerPte < w.manager.reversedPageCount)
    (hq : q / ptrsPerPte < w.manager.reversedPageCount) :
    Apart (reversedEntry w.manager p) (reversedEntry w.manager q) := by
  unfold reversedEntry
  by_cases same : w.manager.reversedMapPfns (p / ptrsPerPte) =
      w.manager.reversedMapPfns (q / ptrsPerPte)
  · have page := loaded.distinct _ hp _ hq same
    rw [same]
    refine apart_of_index_ne fun index => h ?_
    simp only [ptrsPerPte] at page index
    omega
  · exact apart_of_frame_ne same (Nat.mod_lt _ (by decide)) (Nat.mod_lt _ (by decide))

end Words

/-! ## Effects that keep the invariant -/

section Effects
variable {w w' : World} {m : ByteMem} {f : Nat → Nat} {gone : Nat}

theorem Effect.sameMachine (h : Effect w m f gone w') : SameMachine w w' := ⟨h.manager, h.monitor⟩

theorem Effect.ramPages (h : Effect w m f gone w') : w'.ramPages = w.ramPages :=
  h.sameMachine.ramPages

theorem Effect.covered (h : Effect w m f gone w') (inv : w.Covered) : w'.Covered := by
  intro p hp low
  rw [h.manager] at low ⊢
  exact inv p (h.answers _ hp) low

theorem Effect.pteSlot (h : Effect w m f gone w') {v : Nat}
    (table : f (tablePage v) = w.ppPfn (tablePage v)) : w'.pteSlot v = w.pteSlot v := by
  unfold World.pteSlot
  rw [h.ppPfn, table]

/-- The reversed map stays as it is while no frame of it is given back. -/
theorem Effect.loaded (h : Effect w m f gone w') (inv : ManagerLoaded w)
    (keeps : ∀ i < w.manager.reversedPageCount, w.manager.reversedMapPfns i ≠ gone) :
    ManagerLoaded w' := by
  obtain ⟨hostmem, count, present, out, distinct, pgds⟩ := inv
  constructor
  · rwa [h.manager]
  · rwa [h.manager]
  · rwa [h.manager]
  · rw [h.manager]
    exact fun i hi => h.kept _ (out i hi) (present i hi) (keeps i hi)
  · rwa [h.manager]
  · rwa [h.manager]

theorem Effect.framesOk_same (h : Effect w m w.ppPfn 0 w') (inv : FramesOk w) : FramesOk w' := by
  refine ⟨fun n hn => ?_, fun n => ?_, fun n k hn same => ?_, fun n hn i hi => ?_⟩
  · rw [h.ppPfn] at hn ⊢
    exact h.kept _ (inv.out n hn) hn hn
  · rw [h.ppPfn]
    exact inv.low n
  · rw [h.ppPfn] at hn same
    rw [h.ppPfn] at same
    exact inv.distinct n k hn same
  · rw [h.ppPfn] at hn ⊢
    rw [h.manager] at hi ⊢
    exact inv.notReversed n hn i hi

/-- A page gets a frame that was not out. -/
theorem Effect.framesOk_record {n p : Nat} (h : Effect w m (record w.ppPfn n p) 0 w')
    (loaded : ManagerLoaded w) (inv : FramesOk w) (fresh : p ∉ w.host.out)
    (taken : p ∈ w'.host.out) (low : p < 2 ^ 20) : FramesOk w' := by
  have was : ∀ k, k ≠ n → w'.ppPfn k = w.ppPfn k := fun k hk => by
    rw [h.ppPfn, record, if_neg hk]
  have now : w'.ppPfn n = p := by rw [h.ppPfn, record, if_pos rfl]
  refine ⟨fun k hk => ?_, fun k => ?_, fun k l hk same => ?_, fun k hk i hi => ?_⟩
  · by_cases hkn : k = n
    · rwa [hkn, now]
    · rw [was k hkn] at hk ⊢
      exact h.kept _ (inv.out k hk) hk hk
  · by_cases hkn : k = n
    · rwa [hkn, now]
    · rw [was k hkn]
      exact inv.low k
  · by_cases hkn : k = n <;> by_cases hln : l = n
    · rw [hkn, hln]
    · rw [hkn, now] at hk same
      rw [was l hln] at same
      exact absurd (inv.out l (same ▸ hk)) (same ▸ fresh)
    · rw [was k hkn] at hk same
      rw [hln, now] at same
      exact absurd (inv.out k hk) (same ▸ fresh)
    · rw [was k hkn] at hk same
      rw [was l hln] at same
      exact inv.distinct k l hk same
  · rw [h.manager] at hi ⊢
    by_cases hkn : k = n
    · rw [hkn, now]
      exact fun same => fresh (same ▸ loaded.out i hi)
    · rw [was k hkn] at hk ⊢
      exact inv.notReversed k hk i hi

/-- A page loses its frame, which goes back to the host. -/
theorem Effect.framesOk_erase {n : Nat} (h : Effect w m (record w.ppPfn n 0) (w.ppPfn n) w')
    (inv : FramesOk w) : FramesOk w' := by
  have was : ∀ k, k ≠ n → w'.ppPfn k = w.ppPfn k := fun k hk => by
    rw [h.ppPfn, record, if_neg hk]
  have now : w'.ppPfn n = 0 := by rw [h.ppPfn, record, if_pos rfl]
  have other : ∀ k, w'.ppPfn k ≠ 0 → k ≠ n := fun k hk hkn => hk (hkn ▸ now)
  refine ⟨fun k hk => ?_, fun k => ?_, fun k l hk same => ?_, fun k hk i hi => ?_⟩
  · have hkn := other k hk
    rw [was k hkn] at hk ⊢
    exact h.kept _ (inv.out k hk) hk fun same => hkn (inv.distinct k n hk same)
  · by_cases hkn : k = n
    · rw [hkn, now]
      decide
    · rw [was k hkn]
      exact inv.low k
  · have hkn := other k hk
    have hln := other l (same ▸ hk)
    rw [was k hkn] at hk same
    rw [was l hln] at same
    exact inv.distinct k l hk same
  · have hkn := other k hk
    rw [h.manager] at hi ⊢
    rw [was k hkn] at hk ⊢
    exact inv.notReversed k hk i hi

end Effects

/-! ## Recording a page -/

section Recorded
variable {w w' : World} {n : Nat}

theorem Recorded.sameMachine (h : Recorded w n w') : SameMachine w w' := by
  cases h with
  | had _ h => exact h.sameMachine
  | got _ _ _ _ _ _ h => exact h.sameMachine

theorem Recorded.mem (h : Recorded w n w') : w'.mem = w.mem := by
  cases h with
  | had _ h => exact h.mem
  | got _ _ _ _ _ _ h => exact h.mem

theorem Recorded.ppPfn_ne (h : Recorded w n w') : w'.ppPfn n ≠ 0 := by
  cases h with
  | had ne h => rwa [h.ppPfn]
  | got p _ ne _ _ _ h => rwa [h.ppPfn, record, if_pos rfl]

/-- Every page that had a frame keeps it. -/
theorem Recorded.kept (h : Recorded w n w') {m : Nat} (hm : w.ppPfn m ≠ 0 ∨ m ≠ n) :
    w'.ppPfn m = w.ppPfn m := by
  cases h with
  | had _ h => exact h.ppPfn m
  | got p was _ _ _ _ h =>
    have other : m ≠ n := fun same => hm.elim (fun ne => ne (by rw [same, was])) (· same)
    rw [h.ppPfn, record, if_neg other]

theorem Recorded.out (h : Recorded w n w') {q : Nat} (hq : q ∈ w.host.out) (ne : q ≠ 0) :
    q ∈ w'.host.out := by
  cases h with
  | had _ h => exact h.kept q hq ne ne
  | got _ _ _ _ _ _ h => exact h.kept q hq ne ne

theorem Recorded.answers (h : Recorded w n w') : ∀ a ∈ w'.host.answers, a ∈ w.host.answers := by
  cases h with
  | had _ h => exact h.answers
  | got _ _ _ _ _ _ h => exact h.answers

theorem Recorded.loaded (h : Recorded w n w') (loaded : ManagerLoaded w) : ManagerLoaded w' := by
  cases h with
  | had _ h => exact h.loaded loaded loaded.present
  | got _ _ _ _ _ _ h => exact h.loaded loaded loaded.present

theorem Recorded.framesOk (h : Recorded w n w') (loaded : ManagerLoaded w) (frames : FramesOk w) :
    FramesOk w' := by
  cases h with
  | had _ h => exact h.framesOk_same frames
  | got _ _ _ low fresh taken h =>
    exact h.framesOk_record loaded frames fresh taken (Nat.lt_of_lt_of_le low loaded.hostmem)

/-- Which memory a page is recorded in does not matter. -/
theorem Recorded.of_setMem {m : ByteMem} (h : Recorded (w.setMem m) n w') :
    Recorded w n (w'.setMem w.mem) := by
  cases h with
  | had ne h =>
    exact .had ne ⟨h.manager, h.monitor, rfl, h.ppPfn, h.groups, h.kept, h.answers⟩
  | got p was ne low fresh taken h =>
    exact .got p was ne low fresh taken
      ⟨h.manager, h.monitor, rfl, h.ppPfn, h.groups, h.kept, h.answers⟩

/-- A page that is not a page of RAM can be recorded without mapping it. -/
theorem Recorded.pagesInv (h : Recorded w n w') (inv : PagesInv w)
    (notRam : ∀ v < w.ramPages, ramPage v ≠ n) :
    PagesInv w' ∧ KeepsFree w w' := by
  have pages := h.sameMachine.ramPages
  have manager := h.sameMachine.manager
  have table : ∀ v < w.ramPages, w'.ppPfn (tablePage v) = w.ppPfn (tablePage v) :=
    fun v hv => h.kept (.inl (inv.tables v hv))
  have ram : ∀ v < w.ramPages, w'.ppPfn (ramPage v) = w.ppPfn (ramPage v) :=
    fun v hv => h.kept (.inr (notRam v hv))
  have pte : ∀ v < w.ramPages, w'.pte v = w.pte v := fun v hv => by
    rw [World.pte, World.pteSlot, table v hv, h.mem]
    rfl
  refine ⟨⟨h.loaded inv.loaded, h.framesOk inv.loaded inv.frames, pages ▸ inv.size,
    fun v hv => ?_, fun p hp low => ?_, fun v hv => ?_⟩, fun P _ absent v hv free => ?_⟩
  · rw [table v (pages ▸ hv)]
    exact inv.tables v (pages ▸ hv)
  · rw [manager] at low ⊢
    exact inv.covered p (h.answers _ hp) low
  · have hv' : v < w.ramPages := pages ▸ hv
    obtain ⟨entry, cov, back⟩ := inv.virtualFrame v hv'
    refine ⟨?_, ?_, ?_⟩
    · rw [ram v hv', pte v hv']
      exact entry
    · rw [ram v hv', manager]
      exact cov
    · rw [ram v hv', World.reversed, manager, h.mem]
      exact back
  · have hv' : v < w.ramPages := pages ▸ hv
    rw [ram v hv'] at free
    rw [pte v hv']
    exact absent v hv' free

end Recorded

/-! ## The operations keep the invariant -/

section Preservation
variable {w w' : World} {v : Nat}

theorem PagesInv.quiet (inv : PagesInv w) (h : Quiet w w') : PagesInv w' := by
  refine ⟨h.loaded inv.loaded inv.loaded.present, h.framesOk_same inv.frames, ?_, ?_,
    h.covered inv.covered, ?_⟩
  · rw [h.ramPages]
    exact inv.size
  · intro v hv
    rw [h.ppPfn]
    exact inv.tables v (h.ramPages ▸ hv)
  · intro v hv
    obtain ⟨pte, covered, reversed⟩ := inv.virtualFrame v (h.ramPages ▸ hv)
    refine ⟨?_, ?_, ?_⟩
    · rw [World.pte, h.pteSlot rfl, h.mem, h.ppPfn]
      exact pte
    · rw [h.ppPfn, h.manager]
      exact covered
    · rw [World.reversed, h.ppPfn, h.manager, h.mem]
      exact reversed

theorem Quiet.pte (h : Quiet w w') (u : Nat) : w'.pte u = w.pte u := by
  rw [World.pte, h.pteSlot rfl, h.mem, World.pte]

/-- Mapping a free page of RAM to a fresh, covered frame. -/
theorem PagesInv.mapped {p : Nat} (inv : PagesInv w) (hv : v < w.ramPages)
    (low : p < w.manager.hostmemPages)
    (cov : p / ptrsPerPte < w.manager.reversedPageCount) (fresh : p ∉ w.host.out)
    (taken : p ∈ w'.host.out)
    (h : Effect w (w.mapped v p v p) (record w.ppPfn (ramPage v) p) 0 w') : PagesInv w' := by
  have hv18 := Nat.lt_of_lt_of_le hv inv.size
  have low20 : p < 2 ^ 20 := Nat.lt_of_lt_of_le low inv.loaded.hostmem
  have table : ∀ u, record w.ppPfn (ramPage v) p (tablePage u) = w.ppPfn (tablePage u) :=
    fun u => if_neg (tablePage_ne_ramPage hv18 u)
  refine ⟨h.loaded inv.loaded inv.loaded.present,
    h.framesOk_record inv.loaded inv.frames fresh taken low20, h.ramPages ▸ inv.size, ?_,
    h.covered inv.covered, ?_⟩
  · intro u hu
    rw [h.ppPfn, table]
    exact inv.tables u (h.ramPages ▸ hu)
  · intro u hu
    rw [h.ramPages] at hu
    have tu := inv.tables u hu
    have tv := inv.tables v hv
    obtain ⟨pte, covered, reversed⟩ := inv.virtualFrame u hu
    by_cases same : u = v
    · -- the page itself
      subst same
      have now : w'.ppPfn (ramPage u) = p := by rw [h.ppPfn, record, if_pos rfl]
      refine ⟨fun _ => ?_, fun _ => ?_, fun _ => ?_⟩
      · rw [now, World.pte, h.pteSlot (table u), h.mem, World.mapped,
          ByteMem.readWord_writeWord_self _ _ (linuxPte_lt low20)]
      · rwa [now, h.manager]
      · rw [now, World.reversed, h.manager, h.mem, World.mapped,
          readWord_apart _ _ (pteSlot_apart_reversed inv.frames tu cov),
          ByteMem.readWord_writeWord_self _ _ (by omega)]
    · -- another page: neither of its two words was touched
      have was : w'.ppPfn (ramPage u) = w.ppPfn (ramPage u) := by
        rw [h.ppPfn, record, if_neg (by unfold ramPage; omega)]
      refine ⟨?_, ?_, ?_⟩
      · rw [was, World.pte, h.pteSlot (table u), h.mem, World.mapped,
          readWord_apart _ _ (pteSlot_apart inv.frames (Ne.symm same) tv),
          readWord_apart _ _ (pteSlot_apart_reversed inv.frames tu cov).symm]
        exact pte
      · rw [was, h.manager]
        exact covered
      · rw [was, World.reversed, h.manager, h.mem]
        intro hq
        have ne : p ≠ w.ppPfn (ramPage u) := fun eq => fresh (eq ▸ inv.frames.out _ hq)
        rw [World.mapped,
          readWord_apart _ _ (pteSlot_apart_reversed inv.frames tv (covered hq)),
          readWord_apart _ _ (reversed_apart inv.loaded ne cov (covered hq))]
        exact reversed hq

/-- Clearing the entry of a page that has no frame. -/
theorem PagesInv.unmapped_free (inv : PagesInv w) (hv : v < w.ramPages)
    (free : w.ppPfn (ramPage v) = 0)
    (h : Effect w (w.mem.writeWord (w.pteSlot v) 0) w.ppPfn 0 w') : PagesInv w' := by
  refine ⟨h.loaded inv.loaded inv.loaded.present, h.framesOk_same inv.frames,
    h.ramPages ▸ inv.size, ?_, h.covered inv.covered, ?_⟩
  · intro u hu
    rw [h.ppPfn]
    exact inv.tables u (h.ramPages ▸ hu)
  · intro u hu
    rw [h.ramPages] at hu
    have tv := inv.tables v hv
    obtain ⟨pte, covered, reversed⟩ := inv.virtualFrame u hu
    refine ⟨?_, ?_, ?_⟩
    · rw [World.pte, h.pteSlot rfl, h.mem, h.ppPfn]
      intro hu
      have other : v ≠ u := fun same => hu (same ▸ free)
      rw [readWord_apart _ _ (pteSlot_apart inv.frames other tv)]
      exact pte hu
    · rw [h.ppPfn, h.manager]
      exact covered
    · rw [World.reversed, h.ppPfn, h.manager, h.mem]
      intro hq
      rw [readWord_apart _ _ (pteSlot_apart_reversed inv.frames tv (covered hq))]
      exact reversed hq

/-- Unmapping a page and giving its frame back. -/
theorem PagesInv.unmapped (inv : PagesInv w) (hv : v < w.ramPages)
    (hp : w.ppPfn (ramPage v) ≠ 0)
    (h : Effect w ((w.mem.writeWord (w.pteSlot v) 0).writeWord
      (reversedEntry w.manager (w.ppPfn (ramPage v))) 0) (record w.ppPfn (ramPage v) 0)
      (w.ppPfn (ramPage v)) w') : PagesInv w' := by
  have hv18 := Nat.lt_of_lt_of_le hv inv.size
  have table : ∀ u, record w.ppPfn (ramPage v) 0 (tablePage u) = w.ppPfn (tablePage u) :=
    fun u => if_neg (tablePage_ne_ramPage hv18 u)
  have cov := (inv.virtualFrame v hv).covered hp
  refine ⟨h.loaded inv.loaded (inv.frames.notReversed _ hp), h.framesOk_erase inv.frames,
    h.ramPages ▸ inv.size, ?_, h.covered inv.covered, ?_⟩
  · intro u hu
    rw [h.ppPfn, table]
    exact inv.tables u (h.ramPages ▸ hu)
  · intro u hu
    rw [h.ramPages] at hu
    have tu := inv.tables u hu
    have tv := inv.tables v hv
    obtain ⟨pte, covered, reversed⟩ := inv.virtualFrame u hu
    by_cases same : u = v
    · subst same
      have now : w'.ppPfn (ramPage u) = 0 := by rw [h.ppPfn, record, if_pos rfl]
      exact ⟨fun hn => absurd now hn, fun hn => absurd now hn, fun hn => absurd now hn⟩
    · have was : w'.ppPfn (ramPage u) = w.ppPfn (ramPage u) := by
        rw [h.ppPfn, record, if_neg (by unfold ramPage; omega)]
      refine ⟨?_, ?_, ?_⟩
      · rw [was, World.pte, h.pteSlot (table u), h.mem,
          readWord_apart _ _ (pteSlot_apart_reversed inv.frames tu cov).symm,
          readWord_apart _ _ (pteSlot_apart inv.frames (Ne.symm same) tv)]
        exact pte
      · rw [was, h.manager]
        exact covered
      · rw [was, World.reversed, h.manager, h.mem]
        intro hq
        have ne : w.ppPfn (ramPage v) ≠ w.ppPfn (ramPage u) := fun eq => same <| by
          have := inv.frames.distinct _ _ hp eq
          unfold ramPage at this
          omega
        rw [readWord_apart _ _ (reversed_apart inv.loaded ne cov (covered hq)),
          readWord_apart _ _ (pteSlot_apart_reversed inv.frames tv (covered hq))]
        exact reversed hq

/-- The invariant reads memory at the page table entries and at the words of the reversed map
only. -/
theorem PagesInv.setMem (inv : PagesInv w) {m : ByteMem}
    (pte : ∀ u < w.ramPages, m.readWord (w.pteSlot u) = w.pte u)
    (reversed : ∀ p, p / ptrsPerPte < w.manager.reversedPageCount →
      m.readWord (reversedEntry w.manager p) = w.reversed p) : PagesInv (w.setMem m) := by
  obtain ⟨loaded, frames, size, tables, covered, virtualFrame⟩ := inv
  refine ⟨⟨loaded.1, loaded.2, loaded.3, loaded.4, loaded.5, loaded.6⟩,
    ⟨frames.1, frames.2, frames.3, frames.4⟩, size, tables, covered, fun u hu => ?_⟩
  obtain ⟨entry, cov, back⟩ := virtualFrame u hu
  exact ⟨fun hp => (pte u hu).trans (entry hp), cov, fun hp => (reversed _ (cov hp)).trans (back hp)⟩

/-- Bytes stored inside the frame of a RAM page touch no page table. -/
theorem PagesInv.copied_pte {offset size : Nat} (inv : PagesInv w) (hv : v < w.ramPages)
    (hp : w.ppPfn (ramPage v) ≠ 0) (inPage : offset + size ≤ 4096) (src : Nat → UInt8) (u : Nat) :
    (w.mem.copyBytes (w.ppPfn (ramPage v) * 4096 + offset) size src).readWord (w.pteSlot u) =
      w.pte u := by
  have ne : w.ppPfn (ramPage v) ≠ w.ppPfn (tablePage u) := fun same =>
    tablePage_ne_ramPage (Nat.lt_of_lt_of_le hv inv.size) u
      (inv.frames.distinct _ _ hp same).symm
  exact ByteMem.readWord_copyBytes_outside _ _ (by unfold World.pteSlot; omega)

/-- Neither do they touch the reversed map. -/
theorem PagesInv.copied {offset size : Nat} (inv : PagesInv w) (hv : v < w.ramPages)
    (hp : w.ppPfn (ramPage v) ≠ 0) (inPage : offset + size ≤ 4096) (src : Nat → UInt8) :
    PagesInv (w.setMem
      (w.mem.copyBytes (w.ppPfn (ramPage v) * 4096 + offset) size src)) := by
  refine inv.setMem (fun u _ => inv.copied_pte hv hp inPage src u) fun p cov => ?_
  have ne := inv.frames.notReversed _ hp _ cov
  exact ByteMem.readWord_copyBytes_outside _ _
    (by simp only [reversedEntry, coArchPageSize, ptrsPerPte] at ne ⊢; omega)

theorem PagesInv.copied_free {offset size : Nat} (inv : PagesInv w) (hv : v < w.ramPages)
    (hp : w.ppPfn (ramPage v) ≠ 0) (inPage : offset + size ≤ 4096) (src : Nat → UInt8) :
    KeepsFree w (w.setMem (w.mem.copyBytes (w.ppPfn (ramPage v) * 4096 + offset) size src)) := by
  intro P _ absent u hu free
  have same : (w.setMem (w.mem.copyBytes (w.ppPfn (ramPage v) * 4096 + offset) size src)).pte u =
      w.pte u := inv.copied_pte hv hp inPage src u
  rw [same]
  exact absent u hu free

end Preservation

end CoLinux
