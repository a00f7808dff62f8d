import CoLinux.Kernel.AllocPages
import Mathlib.Data.List.Nodup
import Mathlib.Data.List.Perm.Subperm

/-!
# The loops over guest pages

The loop of `co_alloc_pages` is a prefix of successful calls followed, when it fails, by the
rollback over the same prefix. `Allocated` is what the prefix leaves and `Freed` what the
rollback leaves; both are inductions over `RamStep`.
-/

namespace CoLinux

open Lib

variable {w w' w'' : World} {v i n : Nat}

/-! ## The loop as a prefix of calls -/

/-- The state after `co_monitor_alloc_and_map_page` on the `i` pages from `v` on. -/
def allocPrefix (v : Nat) (w : World) : Nat → World
  | 0 => w
  | i + 1 => (coMonitorAllocAndMapPage (ramAddress (v + i)) (allocPrefix v w i)).2

/-- What the call on page `i` of the range returns, after the calls on the pages before it. -/
def allocResult (v : Nat) (w : World) (i : Nat) : CoRc :=
  (coMonitorAllocAndMapPage (ramAddress (v + i)) (allocPrefix v w i)).1

theorem ramAddress_next {v : Nat} (hv : v < 251904) :
    (ramAddress v + coArchPageSize) % wordSize = ramAddress (v + 1) := by
  simp only [ramAddress, coArchKernelOffset, coArchPageSize, wordSize]
  omega

/-- The loop either succeeds on every page or stops at the first page that fails. -/
theorem allocPagesLoop_cases (hn : v + i + n ≤ 251904) (before : ∀ j < i, allocResult v w j = .ok) :
    let r := allocPagesLoop (ramAddress v) n i (ramAddress (v + i)) (allocPrefix v w i)
    r.1 = .ok ∧ (∀ j < i + n, allocResult v w j = .ok) ∨
    r.1 ≠ .ok ∧ ∃ k < i + n, (∀ j < k, allocResult v w j = .ok) ∧ allocResult v w k ≠ .ok ∧
      r.2 = freePagesLoop k (ramAddress v) (allocPrefix v w (k + 1)) := by
  induction n generalizing i with
  | zero => exact .inl ⟨rfl, before⟩
  | succ n ih =>
    intro r
    by_cases ok : allocResult v w i = .ok
    · have hr : r = allocPagesLoop (ramAddress v) n (i + 1) (ramAddress (v + (i + 1)))
          (allocPrefix v w (i + 1)) := by
        simp only [allocResult] at ok
        simp only [r, allocPagesLoop, ok, if_true, ramAddress_next (show v + i < 251904 by omega)]
        rfl
      have next := ih (i := i + 1) (by omega) fun j hj => by
        by_cases same : j = i
        · exact same ▸ ok
        · exact before j (by omega)
      rw [← hr, show i + 1 + n = i + (n + 1) by omega] at next
      exact next
    · have hr : r = (allocResult v w i,
          freePagesLoop i (ramAddress v) (allocPrefix v w (i + 1))) := by
        simp only [allocResult] at ok
        simp only [r, allocPagesLoop, ok, if_false]
        rfl
      rw [hr]
      exact .inr ⟨ok, i, by omega, before, ok, rfl⟩

/-! ## Properties that every call keeps -/

/-- The rollback keeps what every call on a page of the range keeps. -/
theorem freePagesLoop_keeps {P : World → Prop} (hn : v + n ≤ 251904)
    (step : ∀ w u, v ≤ u → u < v + n → P w → P (coMonitorFreeAndUnmapPage (ramAddress u) w).2)
    (start : P w) : P (freePagesLoop n (ramAddress v) w) := by
  induction n generalizing v w with
  | zero => exact start
  | succ n ih =>
    rw [freePagesLoop, ramAddress_next (by omega)]
    exact ih (by omega) (fun w u lo hi => step w u (by omega) (by omega))
      (step w v (Nat.le_refl _) (by omega) start)

/-- `co_alloc_pages` keeps what both calls on every page of the range keep. -/
theorem allocPagesLoop_keeps {P : World → Prop} (hn : v + i + n ≤ 251904)
    (alloc : ∀ w u, v ≤ u → u < v + i + n → P w →
      P (coMonitorAllocAndMapPage (ramAddress u) w).2)
    (free : ∀ w u, v ≤ u → u < v + i + n → P w →
      P (coMonitorFreeAndUnmapPage (ramAddress u) w).2)
    (start : P w) : P (allocPagesLoop (ramAddress v) n i (ramAddress (v + i)) w).2 := by
  induction n generalizing i w with
  | zero => exact start
  | succ n ih =>
    have here := alloc w (v + i) (Nat.le_add_right _ _) (by omega) start
    rw [allocPagesLoop]
    generalize coMonitorAllocAndMapPage (ramAddress (v + i)) w = r at here
    by_cases ok : r.1 = .ok
    · simp only [ok, if_true, ramAddress_next (show v + i < 251904 by omega)]
      exact ih (i := i + 1) (by omega) (fun w u lo hi => alloc w u lo (by omega))
        (fun w u lo hi => free w u lo (by omega)) here
    · simp only [ok, if_false]
      exact freePagesLoop_keeps (by omega) (fun w u lo hi => free w u lo (by omega)) here

/-! ## What the prefix leaves -/

/-- The first `i` pages from `v` on have frames in `w'`: the ones they had in `w`, or free
ones. Nothing else changed. -/
structure Allocated (w : World) (v i : Nat) (w' : World) : Prop where
  inv : PagesInv w'
  machine : SameMachine w w'
  outside : ∀ n, (∀ j < i, n ≠ ramPage (v + j)) → w'.ppPfn n = w.ppPfn n
  old : ∀ j < i, w.ppPfn (ramPage (v + j)) ≠ 0 →
    w'.ppPfn (ramPage (v + j)) = w.ppPfn (ramPage (v + j))
  new : ∀ j < i, w.ppPfn (ramPage (v + j)) = 0 → w'.ppPfn (ramPage (v + j)) ∈ w.freeFrames
  pte : ∀ u < w.ramPages, (∀ j < i, u ≠ v + j) → w'.pte u = w.pte u
  reversed : ∀ p, p / ptrsPerPte < w.manager.reversedPageCount → w'.reversed p = w.reversed p ∨
    ∃ j < i, p = w'.ppPfn (ramPage (v + j))
  kept : ∀ q, (∀ u < w.ramPages, w.ppPfn (tablePage u) ≠ q) →
    (∀ k < w.manager.reversedPageCount, w.manager.reversedMapPfns k ≠ q) → FrameKept w w' q
  out : ∀ q ∈ w.host.out, q ≠ 0 → q ∈ w'.host.out

theorem ramPage_inj {u v : Nat} (h : ramPage u = ramPage v) : u = v := by
  unfold ramPage at h
  omega

theorem Allocated.start (inv : PagesInv w) : Allocated w v 0 w :=
  ⟨inv, .refl w, fun _ _ => rfl, fun _ h => absurd h (Nat.not_lt_zero _),
    fun _ h => absurd h (Nat.not_lt_zero _), fun _ _ _ => rfl, fun _ _ => .inl rfl,
    fun _ _ _ _ _ => rfl, fun _ h _ => h⟩

/-- Pages from the `i`-th on are as they were. -/
theorem Allocated.later (h : Allocated w v i w') {k : Nat} (hk : i ≤ k) :
    w'.ppPfn (ramPage (v + k)) = w.ppPfn (ramPage (v + k)) :=
  h.outside _ fun j hj same => by
    have := ramPage_inj same
    omega

theorem Allocated.mapped (h : Allocated w v i w') {j : Nat} (hj : j < i) :
    w'.ppPfn (ramPage (v + j)) ≠ 0 := by
  by_cases free : w.ppPfn (ramPage (v + j)) = 0
  · exact (mem_freeFrames.mp (h.new j hj free)).2.1
  · rwa [h.old j hj free]

/-- A frame that was not out before this step was not out before the whole prefix. -/
theorem Allocated.freeFrames (h : Allocated w v i w') {p : Nat} (hp : p ∈ w'.freeFrames) :
    p ∈ w.freeFrames := by
  obtain ⟨low, ne, cov, fresh⟩ := mem_freeFrames.mp hp
  rw [h.machine.manager] at low cov
  exact mem_freeFrames.mpr ⟨low, ne, cov, fun out => fresh (h.out p out ne)⟩

theorem Allocated.kept_step {q : Nat} (h : Allocated w v i w') (hv : v + i < w.ramPages)
    (step : RamStep w' (v + i) w'') (tables : ∀ u < w.ramPages, w.ppPfn (tablePage u) ≠ q)
    (back : ∀ k < w.manager.reversedPageCount, w.manager.reversedMapPfns k ≠ q) :
    FrameKept w w'' q := by
  have hv18 : v + i < 251904 := by
    have := h.inv.size
    rw [h.machine.ramPages] at this
    omega
  have table : w'.ppPfn (tablePage (v + i)) = w.ppPfn (tablePage (v + i)) :=
    h.outside _ fun j hj => tablePage_ne_ramPage (by omega) _
  intro k hk
  rw [step.kept q (by rw [table]; exact tables _ hv) (by rwa [h.machine.manager]) k hk]
  exact h.kept q tables back k hk

/-- A call that fails leaves the state as the prefix before it did. -/
theorem Allocated.failed (h : Allocated w v i w') (hv : v + i < w.ramPages)
    (failed : (coMonitorAllocAndMapPage (ramAddress (v + i)) w').1 ≠ .ok) :
    Allocated w v i (coMonitorAllocAndMapPage (ramAddress (v + i)) w').2 ∧
      w.ppPfn (ramPage (v + i)) = 0 := by
  have hv' : v + i < w'.ramPages := h.machine.ramPages ▸ hv
  have hv18 := Nat.lt_of_lt_of_le hv' h.inv.size
  obtain ⟨step, outcome⟩ := coMonitorAllocAndMapPage_step h.inv hv'
  generalize coMonitorAllocAndMapPage (ramAddress (v + i)) w' = r at failed step outcome
  rcases outcome with ⟨-, was, now, mem⟩ | ⟨ok, -⟩ | ⟨ok, -⟩
  · have same : ∀ n, r.2.ppPfn n = w'.ppPfn n := fun n => by
      by_cases own : n = ramPage (v + i)
      · rw [own, now, was]
      · exact step.other n own
    have reversed : ∀ p, r.2.reversed p = w'.reversed p := fun p => by
      rw [World.reversed, step.machine.manager, mem, World.reversed]
    refine ⟨⟨step.inv, h.machine.trans step.machine, fun n hn => (same n).trans (h.outside n hn),
      fun j hj ne => (same _).trans (h.old j hj ne), fun j hj free => ?_, fun u hu out => ?_,
      fun p cov => ?_, fun q tables back => h.kept_step hv step tables back,
      fun q hq ne => ?_⟩, h.later (Nat.le_refl _) ▸ was⟩
    · rw [same]
      exact h.new j hj free
    · rw [World.pte, step.pteSlot hv18, mem]
      exact h.pte u hu out
    · rw [reversed]
      simpa only [same] using h.reversed p cov
    · rcases step.out q (h.out q hq ne) ne with own | out
      · exact absurd (own.trans was) ne
      · exact out
  · exact absurd ok failed
  · exact absurd ok failed

/-- A call that succeeds makes the prefix one page longer. -/
theorem Allocated.succeeded (h : Allocated w v i w') (hv : v + i < w.ramPages)
    (ok : (coMonitorAllocAndMapPage (ramAddress (v + i)) w').1 = .ok) :
    Allocated w v (i + 1) (coMonitorAllocAndMapPage (ramAddress (v + i)) w').2 := by
  have hv' : v + i < w'.ramPages := h.machine.ramPages ▸ hv
  obtain ⟨step, outcome⟩ := coMonitorAllocAndMapPage_step h.inv hv'
  generalize coMonitorAllocAndMapPage (ramAddress (v + i)) w' = r at ok step outcome
  have current := h.later (Nat.le_refl i)
  have before : ∀ j < i, r.2.ppPfn (ramPage (v + j)) = w'.ppPfn (ramPage (v + j)) :=
    fun j hj => step.other _ fun same => by
      have := ramPage_inj same
      omega
  refine ⟨step.inv, h.machine.trans step.machine, fun n hn => ?_, fun j hj ne => ?_,
    fun j hj free => ?_, fun u hu outside => ?_, fun p cov => ?_,
    fun q tables back => h.kept_step hv step tables back, fun q hq ne => ?_⟩
  · rw [step.other n (hn i (by omega))]
    exact h.outside n fun j hj => hn j (by omega)
  · by_cases last : j = i
    · subst last
      rcases outcome with ⟨failed, -⟩ | ⟨-, -, now, -⟩ | ⟨-, was, -⟩
      · exact absurd ok failed
      · exact now.trans current
      · exact absurd (current ▸ was) ne
    · rw [before j (by omega)]
      exact h.old j (by omega) ne
  · by_cases last : j = i
    · subst last
      rcases outcome with ⟨failed, -⟩ | ⟨-, was, -⟩ | ⟨-, -, now⟩
      · exact absurd ok failed
      · exact absurd (current.trans free) was
      · exact h.freeFrames now
    · rw [before j (by omega)]
      exact h.new j (by omega) free
  · rw [step.pte u (h.machine.ramPages ▸ hu) (outside i (by omega))]
    exact h.pte u hu fun j hj => outside j (by omega)
  · rcases step.reversed p (h.machine.manager ▸ cov) with same | ⟨ne, was | now⟩
    · rw [same]
      exact (h.reversed p cov).imp id fun ⟨j, hj, at'⟩ =>
        ⟨j, by omega, at'.trans (before j hj).symm⟩
    · rcases outcome with ⟨failed, -⟩ | ⟨-, -, now, -⟩ | ⟨-, free, -⟩
      · exact absurd ok failed
      · exact .inr ⟨i, by omega, was.trans now.symm⟩
      · exact absurd (was.trans free) ne
    · exact .inr ⟨i, by omega, now⟩
  · rcases step.out q (h.out q hq ne) ne with own | out
    · rcases outcome with ⟨failed, -⟩ | ⟨-, -, now, -⟩ | ⟨-, was, -⟩
      · exact absurd ok failed
      · rw [own, ← now]
        exact step.inv.frames.out _ (by rw [now, ← own]; exact ne)
      · exact absurd (own.trans was) ne
    · exact out

/-- A prefix of calls that all succeed. -/
theorem allocPrefix_allocated (inv : PagesInv w) (range : v + i ≤ w.ramPages)
    (ok : ∀ j < i, allocResult v w j = .ok) : Allocated w v i (allocPrefix v w i) := by
  induction i with
  | zero => exact .start inv
  | succ i ih =>
    exact (ih (by omega) fun j hj => ok j (by omega)).succeeded (by omega) (ok i (by omega))

/-! ## What the rollback leaves -/

/-- `w''` is `w'` after the `i` pages from `v` on, which all had frames, were freed. -/
structure Freed (w' : World) (v i : Nat) (w'' : World) : Prop where
  machine : SameMachine w' w''
  outside : ∀ n, (∀ j < i, n ≠ ramPage (v + j)) → w''.ppPfn n = w'.ppPfn n
  freed : ∀ j < i, w''.ppPfn (ramPage (v + j)) = 0
  pte : ∀ u < w'.ramPages, (∀ j < i, u ≠ v + j) → w''.pte u = w'.pte u
  cleared : ∀ j < i, w''.pte (v + j) = 0
  reversed : ∀ p, p / ptrsPerPte < w'.manager.reversedPageCount →
    w''.reversed p = w'.reversed p ∨ ∃ j < i, p = w'.ppPfn (ramPage (v + j))
  forgotten : ∀ j < i, w''.reversed (w'.ppPfn (ramPage (v + j))) = 0
  kept : ∀ q, (∀ u < w'.ramPages, w'.ppPfn (tablePage u) ≠ q) →
    (∀ k < w'.manager.reversedPageCount, w'.manager.reversedMapPfns k ≠ q) → FrameKept w' w'' q

/-- The first of `i + 1` pages is freed by one call, the others by the rest of the loop. -/
theorem Freed.cons {w1 : World} (inv : PagesInv w') (hv : v + i < w'.ramPages)
    (mapped : ∀ j < i + 1, w'.ppPfn (ramPage (v + j)) ≠ 0) (step : RamStep w' v w1)
    (freed : w1.ppPfn (ramPage v) = 0) (forgotten : w1.reversed (w'.ppPfn (ramPage v)) = 0)
    (cleared : w1.pte v = 0) (rest : Freed w1 (v + 1) i w'') : Freed w' v (i + 1) w'' := by
  have hv18 : v < 251904 := by
    have := inv.size
    omega
  have next : ∀ j, ramPage (v + (j + 1)) = ramPage (v + 1 + j) := fun j => by
    rw [Nat.add_right_comm v 1 j, Nat.add_assoc]
  have same : ∀ j < i, w1.ppPfn (ramPage (v + 1 + j)) = w'.ppPfn (ramPage (v + (j + 1))) :=
    fun j _ => by
      rw [next]
      exact step.other _ fun h => by
        have := ramPage_inj h
        omega
  have apart : ∀ j < i, ramPage v ≠ ramPage (v + 1 + j) := fun j _ h => by
    have := ramPage_inj h
    omega
  refine ⟨step.machine.trans rest.machine, fun n hn => ?_, fun j hj => ?_, fun u hu hn => ?_,
    fun j hj => ?_, fun p cov => ?_, fun j hj => ?_, fun q tables back k hk => ?_⟩
  · rw [rest.outside n fun j hj => next j ▸ hn (j + 1) (by omega)]
    exact step.other n (hn 0 (by omega))
  · cases j with
    | zero => exact (rest.outside _ apart).trans freed
    | succ j => exact next j ▸ rest.freed j (by omega)
  · rw [rest.pte u (step.machine.ramPages ▸ hu) fun j hj => by
      have := hn (j + 1) (by omega)
      omega]
    exact step.pte u hu (hn 0 (by omega))
  · cases j with
    | zero =>
      rw [Nat.add_zero, rest.pte v (by rw [step.machine.ramPages]; omega) fun j _ => by omega]
      exact cleared
    | succ j =>
      rw [show v + (j + 1) = v + 1 + j by omega]
      exact rest.cleared j (by omega)
  · rcases rest.reversed p (step.machine.manager ▸ cov) with same' | ⟨j, hj, at'⟩
    · rcases step.reversed p cov with kept | ⟨ne, was | now⟩
      · exact .inl (same'.trans kept)
      · exact .inr ⟨0, by omega, was⟩
      · exact absurd (now.trans freed) ne
    · exact .inr ⟨j + 1, by omega, at'.trans (same j hj)⟩
  · cases j with
    | zero =>
      have cov := (inv.virtualFrame v (by omega)).covered (mapped 0 (by omega))
      rcases rest.reversed _ (step.machine.manager ▸ cov) with kept | ⟨j, hj, at'⟩
      · exact kept.trans forgotten
      · -- the frame of another page of the range cannot be this one
        rw [same j hj] at at'
        have := ramPage_inj (inv.frames.distinct _ _ (mapped 0 (by omega)) at')
        omega
    | succ j =>
      rw [← same j (by omega)]
      exact rest.forgotten j (by omega)
  · rw [rest.kept q ?_ (by rwa [step.machine.manager]) k hk]
    · exact step.kept q (tables v (by omega)) back k hk
    · intro u hu
      rw [step.other _ (tablePage_ne_ramPage hv18 u)]
      exact tables u (step.machine.ramPages ▸ hu)

theorem freePagesLoop_freed (inv : PagesInv w') (range : v + i ≤ w'.ramPages)
    (mapped : ∀ j < i, w'.ppPfn (ramPage (v + j)) ≠ 0) :
    Freed w' v i (freePagesLoop i (ramAddress v) w') := by
  induction i generalizing v w' with
  | zero =>
    exact ⟨.refl w', fun _ _ => rfl, fun _ h => absurd h (Nat.not_lt_zero _), fun _ _ _ => rfl,
      fun _ h => absurd h (Nat.not_lt_zero _), fun _ _ => .inl rfl,
      fun _ h => absurd h (Nat.not_lt_zero _), fun _ _ _ _ _ => rfl⟩
  | succ i ih =>
    obtain ⟨step, freed, forgotten, cleared⟩ :=
      coMonitorFreeAndUnmapPage_step inv (show v < w'.ramPages by omega)
    have hv18 : v < 251904 := by
      have := inv.size
      omega
    rw [freePagesLoop, ramAddress_next hv18]
    generalize (coMonitorFreeAndUnmapPage (ramAddress v) w').2 = w1 at step freed forgotten cleared
    have here := mapped 0 (by omega)
    refine Freed.cons inv (by omega) mapped step freed (forgotten here)
      (cleared.resolve_right fun none => here none.1)
      (ih step.inv (by rw [step.machine.ramPages]; omega) fun j hj => ?_)
    have same : w1.ppPfn (ramPage (v + 1 + j)) = w'.ppPfn (ramPage (v + 1 + j)) :=
      step.other _ fun h => by
        have := ramPage_inj h
        omega
    rw [same, Nat.add_assoc, Nat.add_comm 1 j]
    exact mapped (j + 1) (by omega)

/-! ## Counting frames -/

/-- The pages among the first `i` of the range that have no frame. -/
def unmappedBefore (w : World) (v i : Nat) : List Nat :=
  (List.range i).filter fun j => w.ppPfn (ramPage (v + j)) = 0

theorem mem_unmappedBefore {j : Nat} :
    j ∈ unmappedBefore w v i ↔ j < i ∧ w.ppPfn (ramPage (v + j)) = 0 := by
  simp [unmappedBefore]

/-- The pages a prefix of calls mapped took different free frames. -/
theorem Allocated.enoughFrames (h : Allocated w v i w') :
    (unmappedBefore w v i).length ≤ w.freeFrames.length := by
  have nodup : (unmappedBefore w v i).Nodup := List.nodup_range.filter _
  have taken : ((unmappedBefore w v i).map fun j => w'.ppPfn (ramPage (v + j))).Nodup := by
    refine nodup.map_on fun j hj k hk same => ?_
    have := ramPage_inj
      (h.inv.frames.distinct _ _ (h.mapped (mem_unmappedBefore.mp hj).1) same)
    omega
  have sub : ((unmappedBefore w v i).map fun j => w'.ppPfn (ramPage (v + j))) ⊆ w.freeFrames := by
    intro p hp
    obtain ⟨j, hj, rfl⟩ := List.mem_map.mp hp
    obtain ⟨lt, free⟩ := mem_unmappedBefore.mp hj
    exact h.new j lt free
  simpa using (List.subperm_of_subset taken sub).length_le

end CoLinux
